import OmnibaseCore.Effect.CircuitBreakerTheorems

/-!
# What the circuit breaker admits

* `admissionLaw_iff`: the bounds on what is admitted. The call of `should_allow_request` that makes
  the breaker half open admits a request that no counter counts, so a half-open period that such
  a call begins can let through one more request than the configuration allows.
* `recovers_iff`: a breaker that is half open and whose probes have all succeeded admits another
  request, whatever was called before, if and only if the probes can reach the threshold of
  successes.
-/

namespace OmnibaseCore.Effect.ModelCircuitBreaker

/-! ## The admission law -/

def Opens (b : ModelCircuitBreaker) (c : BreakerCall) : Prop :=
  b.state ≠ .open ∧ (b.call c).2.state = .open

/-- What may be admitted. Only `should_allow_request` returns `True`. -/
structure AdmissionLaw (b : ModelCircuitBreaker) (calls : List BreakerCall) : Prop where
  /-- Nothing is admitted until the timeout has passed since the breaker was opened. -/
  whileOpen : ∀ before c middle d rest, calls = before ++ c :: (middle ++ d :: rest) →
    Opens (b.after before) c →
    (∀ e ∈ middle ++ [d], e.now < c.later + microseconds b.timeoutSeconds) →
      ((b.after (before ++ c :: middle)).call d).1 = false
  /-- From the call that makes the breaker half open until the state changes again, as many
  requests are admitted as the configuration allows. -/
  whileHalfOpen : ∀ before c middle rest, calls = before ++ c :: (middle ++ rest) →
    HalfOpens (b.after before) c → StaysHalfOpen (b.after (before ++ [c])) middle →
      (b.after before).admissions (c :: middle) ≤ b.halfOpenMaxRequests
  counters : ∀ before, before <+: calls → Bounds (b.after before)

/-- In a half-open period that `should_allow_request` begins, a call of it finds room for two
requests at least. -/
def LeavesRoom (b : ModelCircuitBreaker) (calls : List BreakerCall) : Prop :=
  ∀ before c middle d rest, calls = before ++ c :: (middle ++ d :: rest) →
    HalfOpens (b.after before) c → c.method = .shouldAllowRequest →
    StaysHalfOpen (b.after (before ++ [c])) middle → d.method = .shouldAllowRequest →
      (b.after (before ++ c :: middle)).halfOpenRequests + 1 < b.halfOpenMaxRequests

section
variable {b : ModelCircuitBreaker}

theorem after_concat (calls : List BreakerCall) (c : BreakerCall) :
    b.after (calls ++ [c]) = ((b.after calls).call c).2 := by
  rw [after_append]
  rfl

variable {calls : List BreakerCall}

theorem StaysHalfOpen.last (h : StaysHalfOpen b calls) : (b.after calls).state = .halfOpen :=
  h calls List.prefix_rfl

variable {d : BreakerCall}

theorem StaysHalfOpen.init (h : StaysHalfOpen b (calls ++ [d])) : StaysHalfOpen b calls :=
  fun done hdone => h done (hdone.trans (List.prefix_append calls [d]))

theorem StaysHalfOpen.concat (h : StaysHalfOpen b calls)
    (hd : ((b.after calls).call d).2.state = .halfOpen) : StaysHalfOpen b (calls ++ [d]) := by
  intro done hdone
  rcases List.prefix_concat_iff.mp hdone with rfl | hdone
  · rw [after_concat]
    exact hd
  · exact h done hdone

variable {c : BreakerCall}

theorem lastStateChange_of_opens (henabled : b.enabled = true) (h : Opens b c) :
    (b.call c).2.lastStateChange = some c.later := by
  rcases h with ⟨hbefore, hafter⟩
  have hturn := call_turn henabled c
  revert hafter hturn
  generalize (b.call c).1 = r
  generalize (b.call c).2 = b'
  intro hafter hturn
  cases hturn with
  | keeps _ state => exact absurd (state.symm.trans hafter) hbefore
  | opens _ _ _ change => exact change
  | probe _ _ _ _ state => exact absurd (hafter.symm.trans state) nofun
  | success _ _ _ _ state => exact absurd (hafter.symm.trans state) nofun
  | halfOpens _ _ _ _ _ state => exact absurd (hafter.symm.trans state) nofun
  | closes _ _ state => exact absurd (hafter.symm.trans state) nofun

theorem state_shouldAllowRequest (hstate : b.state = .halfOpen)
    (hmethod : d.method = .shouldAllowRequest) : (b.call d).2.state = .halfOpen := by
  unfold call
  rw [hmethod]
  dsimp only
  unfold shouldAllowRequest
  split
  · exact hstate
  · dsimp only
    rw [cleanupOldData_state, hstate]
    dsimp only
    split
    · rfl
    · rw [cleanupOldData_state, hstate]

theorem admissions_period (henabled : b.enabled = true) (hc : HalfOpens b c)
    {middle : List BreakerCall} (hmiddle : StaysHalfOpen (b.call c).2 middle) :
    b.admissions (c :: middle) = (if c.method = .shouldAllowRequest then 1 else 0)
      + (b.after (c :: middle)).halfOpenRequests := by
  rcases call_halfOpens henabled hc with ⟨hadmits, -, hzero, -⟩
  have henabled' := (call_turn henabled c).settings.enabled.trans henabled
  have hcount := halfOpenRequests_after henabled' hmiddle
  have hfirst : (b.call c).1.toNat = if c.method = .shouldAllowRequest then 1 else 0 := by
    by_cases hmethod : c.method = .shouldAllowRequest
    · rw [if_pos hmethod, hadmits.mpr hmethod]
      rfl
    · rw [if_neg hmethod, Bool.eq_false_iff.mpr fun h => hmethod (hadmits.mp h)]
      rfl
  rw [admissions, after_cons, hfirst, hcount, hzero, Nat.zero_add]

/-- Where room is left, the half-open breaker is below its limit. -/
theorem lt_of_leavesRoom (henabled : b.enabled = true) {before middle rest : List BreakerCall}
    (hroom : LeavesRoom b (before ++ c :: (middle ++ rest))) (hc : HalfOpens (b.after before) c)
    (hmethod : c.method = .shouldAllowRequest)
    (hmiddle : StaysHalfOpen (b.after (before ++ [c])) middle) :
    (b.after (before ++ c :: middle)).halfOpenRequests < b.halfOpenMaxRequests := by
  have hbefore := (settings_after henabled before).enabled.trans henabled
  have hc' := (call_turn hbefore c).settings.enabled.trans hbefore
  rw [after_concat] at hmiddle
  rw [after_append, after_cons]
  -- the last call of the period decides
  induction middle using List.reverseRecOn generalizing rest with
  | nil =>
    rw [after_nil, (call_halfOpens hbefore hc).2.2.1]
    exact b.halfOpenMaxRequests_mem.1
  | append_singleton done d ih =>
    have hdone := hmiddle.init
    have hlast := hmiddle.last
    rw [List.append_assoc] at hroom
    rw [after_concat] at hlast ⊢
    have hcall := call_halfOpen ((settings_after hc' done).enabled.trans hc') hdone.last hlast
    rw [hcall.1]
    by_cases hd : d.method = .shouldAllowRequest
    · have hlt := hroom before c done d rest rfl hc hmethod (by rwa [after_concat]) hd
      rw [after_append, after_cons] at hlt
      have hle := Bool.toNat_le ((((b.after before).call c).2.after done).call d).1
      omega
    · have hfalse : ((((b.after before).call c).2.after done).call d).1 = false :=
        Bool.eq_false_iff.mpr fun h => hd (hcall.2.2.1 h)
      rw [hfalse, Bool.toNat_false, Nat.add_zero]
      exact ih hroom hdone

/-- A breaker in its default state obeys the law, in a run that does not force its state, if and
only if the run leaves room in the half-open periods that `should_allow_request` begins. -/
theorem admissionLaw_iff (hfresh : b.Fresh) (henabled : b.enabled = true)
    {calls : List BreakerCall} (hforce : ∀ c ∈ calls, Unforced c) :
    AdmissionLaw b calls ↔ LeavesRoom b calls := by
  constructor
  · intro hlaw before c middle d rest hcalls hc hmethod hmiddle hd
    have hbefore := (settings_after henabled before).enabled.trans henabled
    have hc' := (call_turn hbefore c).settings.enabled.trans hbefore
    have hperiod := hmiddle
    rw [after_concat] at hperiod
    -- the law for the period with the call, which admits a request if there is room
    have hstate : ((((b.after before).call c).2.after middle).call d).2.state = .halfOpen :=
      state_shouldAllowRequest hperiod.last hd
    have hconcat := hperiod.concat hstate
    have hle := hlaw.whileHalfOpen before c (middle ++ [d]) rest (by simp [hcalls]) hc
      (by rwa [after_concat])
    have hcall := call_halfOpen ((settings_after hc' middle).enabled.trans hc') hperiod.last hstate
    have hmax := ((settings_after henabled before).trans
      ((call_turn hbefore c).settings.trans (settings_after hc' middle))).halfOpenMaxRequests
    rw [admissions_period hbefore hc hconcat, if_pos hmethod, after_cons, after_concat,
      hcall.1] at hle
    rw [after_append, after_cons]
    by_cases hroom : (((b.after before).call c).2.after middle).halfOpenRequests
        < (((b.after before).call c).2.after middle).halfOpenMaxRequests
    · rw [hcall.2.2.2 hd hroom, Bool.toNat_true] at hle
      omega
    · omega
  · intro hroom
    refine ⟨?_, ?_, ?_⟩
    · intro before c middle d rest hcalls hopens hearly
      have hbefore := settings_after henabled before
      have henabled' := hbefore.enabled.trans henabled
      have hturn := call_turn henabled' c
      have hc' := hturn.settings.enabled.trans henabled'
      have hforced : ∀ e ∈ middle ++ [d], Unforced e := by
        intro e he
        apply hforce
        rw [hcalls]
        simp only [List.mem_append, List.mem_cons] at he ⊢
        tauto
      have htime : ((b.after before).call c).2.timeoutSeconds = b.timeoutSeconds :=
        hturn.settings.timeoutSeconds.trans hbefore.timeoutSeconds
      have hchange := lastStateChange_of_opens henabled' hopens
      rw [← htime] at hearly
      have hmiddle := after_open hc' hopens.2 hchange
        (fun e he => hforced e (List.mem_append_left [d] he))
        (fun e he => hearly e (List.mem_append_left [d] he))
      have hd : d ∈ middle ++ [d] := by simp
      have hsettings := settings_after hc' middle
      have hlast := hearly d hd
      rw [← hsettings.timeoutSeconds] at hlast
      rw [after_append, after_cons]
      exact (call_open (hsettings.enabled.trans hc') hmiddle.1 hmiddle.2 (hforced d hd) hlast).1
    · intro before c middle rest hcalls hc hmiddle
      have hbefore := (settings_after henabled before).enabled.trans henabled
      have hperiod := hmiddle
      rw [after_concat] at hperiod
      rw [admissions_period hbefore hc hperiod]
      by_cases hmethod : c.method = .shouldAllowRequest
      · have hlt := lt_of_leavesRoom henabled (hcalls ▸ hroom) hc hmethod hmiddle
        rw [after_append] at hlt
        rw [if_pos hmethod]
        omega
      · have hbounds := (hfresh.bounds.after henabled (before ++ c :: middle)).requests
        rw [(settings_after henabled _).halfOpenMaxRequests, after_append] at hbounds
        rw [if_neg hmethod, Nat.zero_add]
        exact hbounds
    · intro before hprefix
      exact hfresh.bounds.after henabled before

end

def clock (calls : List BreakerCall) : List ℤ := calls.flatMap fun c => [c.now, c.later]

def outage : List BreakerCall := List.replicate 10 ⟨.recordFailure, 0, 0⟩

def requests (n : ℕ) : List BreakerCall :=
  List.replicate n ⟨.shouldAllowRequest, 60000000, 60000000⟩

theorem fresh_default : Fresh {} := ⟨rfl, rfl, rfl, rfl, rfl, rfl, rfl⟩

theorem admissionLaw_iff_outage :
    AdmissionLaw {} (outage ++ requests 3) ↔ LeavesRoom {} (outage ++ requests 3) :=
  admissionLaw_iff fresh_default rfl (by unfold Unforced; decide)

/-- After the timeout four requests are admitted, where the configuration allows three. -/
theorem outage_not_admissionLaw :
    Fresh {} ∧ (∀ c ∈ outage ++ requests 4, Unforced c) ∧
      (clock (outage ++ requests 4)).Pairwise (· ≤ ·) ∧
      ¬ AdmissionLaw {} (outage ++ requests 4) := by
  refine ⟨fresh_default, by unfold Unforced; decide, by decide, fun hlaw => ?_⟩
  have hle := hlaw.whileHalfOpen outage ⟨.shouldAllowRequest, 60000000, 60000000⟩ (requests 3) []
    rfl (by unfold HalfOpens; decide +kernel) ?_
  · revert hle
    decide +kernel
  · intro done hdone
    rw [List.prefix_iff_eq_take] at hdone
    have hlength : done.length ≤ 3 := by
      rw [hdone, List.length_take]
      exact Nat.min_le_right _ _
    rw [hdone]
    revert hlength
    generalize done.length = n
    revert n
    decide +kernel

/-! ## Recovery -/

/-- What has been admitted, and what has succeeded, since the breaker became half open. -/
structure Probes where
  admitted : ℕ
  succeeded : ℕ

/-- The account after one more call. -/
def Probes.next (p : Probes) (b : ModelCircuitBreaker) (c : BreakerCall) : Probes :=
  if (b.call c).2.state ≠ .halfOpen then ⟨0, 0⟩
  else if b.state ≠ .halfOpen then ⟨(b.call c).1.toNat, 0⟩
  else ⟨p.admitted + (b.call c).1.toNat,
    p.succeeded + if c.method = .recordSuccess then 1 else 0⟩

def probesAfter : ModelCircuitBreaker → Probes → List BreakerCall → Probes
  | _, p, [] => p
  | b, p, c :: calls => probesAfter (b.call c).2 (p.next b c) calls

/-- If the calls leave the breaker half open, and every request admitted since it became half open
has reported success, then another request is admitted or the breaker is closed. -/
def Recovers (b : ModelCircuitBreaker) (calls : List BreakerCall) : Prop :=
  (b.after calls).state = .halfOpen →
    (b.probesAfter ⟨0, 0⟩ calls).admitted ≤ (b.probesAfter ⟨0, 0⟩ calls).succeeded →
      (∀ now later, ((b.after calls).shouldAllowRequest now later).1 = true) ∨
        (b.after calls).state = .closed

section
variable {b : ModelCircuitBreaker}

/-- The counters of a half-open breaker agree with the account. An admission that made the breaker
half open is in the account only. -/
def Counted (b : ModelCircuitBreaker) (p : Probes) : Prop :=
  b.state = .halfOpen → b.halfOpenRequests ≤ p.admitted ∧ p.succeeded = b.successCount

variable {p : Probes}

theorem Counted.next (henabled : b.enabled = true) (h : Counted b p) (c : BreakerCall) :
    Counted (b.call c).2 (p.next b c) := by
  intro hstate'
  unfold Probes.next
  rw [if_neg (not_not.mpr hstate')]
  by_cases hstate : b.state = .halfOpen
  · rw [if_neg (not_not.mpr hstate)]
    have hcall := call_halfOpen henabled hstate hstate'
    rw [hcall.1, hcall.2.1]
    exact ⟨Nat.add_le_add_right (h hstate).1 _, congrArg (· + _) (h hstate).2⟩
  · rw [if_pos hstate]
    have hcall := call_halfOpens henabled ⟨hstate, hstate'⟩
    rw [hcall.2.2.1, hcall.2.2.2]
    exact ⟨Nat.zero_le _, rfl⟩

theorem Counted.after (henabled : b.enabled = true) (h : Counted b p) (calls : List BreakerCall) :
    Counted (b.after calls) (b.probesAfter p calls) := by
  induction calls generalizing b p with
  | nil => exact h
  | cons c calls ih =>
    exact ih ((call_turn henabled c).settings.enabled.trans henabled) (h.next henabled c)

theorem shouldAllowRequest_of_lt (hstate : b.state = .halfOpen)
    (hroom : b.halfOpenRequests < b.halfOpenMaxRequests) (now later : ℤ) :
    (b.shouldAllowRequest now later).1 = true := by
  unfold shouldAllowRequest
  split
  · rfl
  · dsimp only
    rw [cleanupOldData_state, hstate]
    dsimp only
    rw [cleanupOldData_halfOpenRequests, if_pos (by simpa using hroom)]

theorem shouldAllowRequest_of_le (henabled : b.enabled = true) (hstate : b.state = .halfOpen)
    (hfull : b.halfOpenMaxRequests ≤ b.halfOpenRequests) (now later : ℤ) :
    (b.shouldAllowRequest now later).1 = false := by
  unfold shouldAllowRequest
  rw [if_neg (not_disabled henabled)]
  dsimp only
  rw [cleanupOldData_state, hstate]
  dsimp only
  rw [if_neg (by simpa using hfull)]

theorem recovers_of_le (hfresh : b.Fresh) (henabled : b.enabled = true)
    (hle : b.successThreshold ≤ b.halfOpenMaxRequests) (calls : List BreakerCall) :
    b.Recovers calls := by
  intro hstate hreported
  have hsettings := settings_after henabled calls
  have hstart : Counted b ⟨0, 0⟩ := by
    intro h
    rw [hfresh.state] at h
    cases h
  rcases (hstart.after henabled calls) hstate with ⟨hadmitted, hsucceeded⟩
  -- the successes have not reached the threshold, so neither have the requests
  have hmissing := (hfresh.bounds.after henabled calls).successes
  rw [hsettings.successThreshold] at hmissing
  refine Or.inl (shouldAllowRequest_of_lt hstate ?_)
  rw [hsettings.halfOpenMaxRequests]
  omega

theorem enabled_call_of_disabled (hdisabled : b.enabled = false) (c : BreakerCall) :
    (b.call c).2.enabled = false := by
  have hif : (!b.enabled) = true := by rw [hdisabled]; rfl
  have hfailure : (b.recordFailure c.now c.later).enabled = false := by
    unfold recordFailure
    rw [if_pos hif]
    exact hdisabled
  unfold call
  cases c.method with
  | shouldAllowRequest =>
    dsimp only
    unfold shouldAllowRequest
    rw [if_pos hif]
    exact hdisabled
  | recordSuccess =>
    dsimp only
    unfold recordSuccess
    rw [if_pos hif]
    exact hdisabled
  | recordFailure => exact hfailure
  | recordSlowCall durationMs =>
    dsimp only
    unfold recordSlowCall
    split
    · exact hdisabled
    · rw [if_pos hif]
      exact hdisabled
  | getCurrentState =>
    dsimp only
    unfold getCurrentState
    rw [if_pos hif]
    exact hdisabled
  | forceOpen => exact hdisabled
  | forceClose => exact hdisabled
  | resetState => exact hdisabled

theorem enabled_after_of_disabled (hdisabled : b.enabled = false) (calls : List BreakerCall) :
    (b.after calls).enabled = false := by
  induction calls generalizing b with
  | nil => exact hdisabled
  | cons c calls ih => exact ih (enabled_call_of_disabled hdisabled c)

theorem recovers_of_disabled (hdisabled : b.enabled = false) (calls : List BreakerCall) :
    b.Recovers calls := by
  intro _ _
  refine Or.inl fun now later => ?_
  unfold shouldAllowRequest
  rw [enabled_after_of_disabled hdisabled calls]
  rfl

/-! ### Probes that cannot reach the threshold -/

def failures (n : ℕ) : List BreakerCall := List.replicate n ⟨.recordFailure, 0, 0⟩

def succeedingRequests (instant : ℤ) (n : ℕ) : List BreakerCall :=
  (List.replicate n [⟨.shouldAllowRequest, instant, instant⟩,
    ⟨.recordSuccess, instant, instant⟩]).flatten

def question (b : ModelCircuitBreaker) : BreakerCall :=
  ⟨.getCurrentState, microseconds b.timeoutSeconds, microseconds b.timeoutSeconds⟩

/-- An outage, the question for the state, and as many requests as are admitted, all of which
succeed. -/
def recovery (b : ModelCircuitBreaker) : List BreakerCall :=
  failures b.minimumRequestThreshold ++ b.question ::
    succeedingRequests (microseconds b.timeoutSeconds) b.halfOpenMaxRequests

/-- A closed breaker that has seen `k` failures and nothing else, and opens at the `m`-th. -/
structure Failed (b : ModelCircuitBreaker) (m k : ℕ) : Prop where
  enabled : b.enabled = true
  state : b.state = .closed
  failureCount : b.failureCount = k
  totalRequests : b.totalRequests = k
  threshold : b.minimumRequestThreshold = m

theorem nearestFloat_one : nearestFloat 1 = 1 := by decide +kernel

theorem cleanupOldData_self {now : ℤ} (h : b.lastFailureTime = some now) :
    b.cleanupOldData now = b := by
  unfold cleanupOldData microseconds
  rw [h]
  dsimp only
  rw [if_neg (by omega)]

variable {m k : ℕ}

theorem Failed.next (h : Failed b m k) (hk : k + 1 < m) :
    Failed (b.call ⟨.recordFailure, 0, 0⟩).2 m (k + 1) := by
  unfold call
  dsimp only
  unfold recordFailure
  rw [if_neg (not_disabled h.enabled)]
  dsimp only
  rw [h.state]
  dsimp only
  rw [if_neg (by simp [shouldOpenCircuit, h.totalRequests, h.threshold, hk]),
    cleanupOldData_self rfl]
  exact ⟨h.enabled, rfl, congrArg (· + 1) h.failureCount, congrArg (· + 1) h.totalRequests,
    h.threshold⟩

/-- The last failure opens the breaker: all requests have failed. -/
theorem Failed.opens (h : Failed b m k) (hk : k + 1 = m) :
    (b.call ⟨.recordFailure, 0, 0⟩).2.state = .open ∧
      (b.call ⟨.recordFailure, 0, 0⟩).2.lastStateChange = some 0 := by
  have hopen : shouldOpenCircuit { b with
      failureCount := b.failureCount + 1
      totalRequests := b.totalRequests + 1
      lastFailureTime := some 0 } = true := by
    unfold shouldOpenCircuit getFailureRate
    dsimp only
    rw [h.totalRequests, h.failureCount, if_neg (by rw [h.threshold]; omega)]
    split
    · rfl
    · rw [if_neg (Nat.succ_ne_zero k), div_self (by positivity), nearestFloat_one,
        decide_eq_true_eq]
      exact b.failureRateThreshold_mem.2
  unfold call
  dsimp only
  unfold recordFailure
  rw [if_neg (not_disabled h.enabled)]
  dsimp only
  rw [h.state] at hopen ⊢
  dsimp only
  rw [if_pos hopen]
  constructor
  · rw [cleanupOldData_state]
    rfl
  · rw [cleanupOldData_lastStateChange]
    rfl

theorem Failed.after_failures (h : Failed b m k) {n : ℕ} (hn : k + (n + 1) = m) :
    (b.after (failures (n + 1))).state = .open ∧
      (b.after (failures (n + 1))).lastStateChange = some 0 := by
  induction n generalizing b k with
  | zero => exact h.opens hn
  | succ n ih => exact ih (h.next (by omega)) (by omega)

theorem call_getCurrentState (henabled : b.enabled = true) (hstate : b.state = .open)
    (hchange : b.lastStateChange = some 0) (now : ℤ) (hnow : now = microseconds b.timeoutSeconds) :
    HalfOpens b ⟨.getCurrentState, now, now⟩ := by
  have helapsed : b.shouldTransitionToHalfOpen now = true := by
    unfold shouldTransitionToHalfOpen
    rw [hchange, hnow]
    simp
  refine ⟨by rw [hstate]; nofun, ?_⟩
  unfold call
  dsimp only
  unfold getCurrentState
  rw [if_neg (not_disabled henabled)]
  dsimp only
  rw [if_pos (by rw [hstate, helapsed]; rfl)]
  rfl

/-- A half-open breaker in which `j` requests were admitted and succeeded, and the account of it. -/
structure Probed (b : ModelCircuitBreaker) (p : Probes) (j : ℕ) : Prop where
  enabled : b.enabled = true
  state : b.state = .halfOpen
  requests : b.halfOpenRequests = j
  successes : b.successCount = j
  account : p = ⟨j, j⟩

/-- A request that is admitted and succeeds, when that is not enough to close the breaker. -/
theorem Probed.next {j : ℕ} (h : Probed b p j) (instant : ℤ) (hroom : j < b.halfOpenMaxRequests)
    (hmissing : j + 1 < b.successThreshold) :
    let probe : BreakerCall := ⟨.shouldAllowRequest, instant, instant⟩
    let report : BreakerCall := ⟨.recordSuccess, instant, instant⟩
    Probed (b.after [probe, report]) (b.probesAfter p [probe, report]) (j + 1) := by
  intro probe report
  have hstate := state_shouldAllowRequest h.state (d := probe) rfl
  have hadmit := call_halfOpen h.enabled h.state hstate
  have hreturned := hadmit.2.2.2 rfl (h.requests ▸ hroom)
  have hsettings := (call_turn h.enabled probe).settings
  have henabled := hsettings.enabled.trans h.enabled
  have hcount : (b.call probe).2.successCount = j := hadmit.2.1.trans h.successes
  have hstate' : ((b.call probe).2.call report).2.state = .halfOpen := by
    show ((b.call probe).2.recordSuccess instant instant).state = .halfOpen
    unfold recordSuccess
    rw [if_neg (not_disabled henabled)]
    dsimp only
    rw [if_pos hstate, if_neg (by rw [hcount, hsettings.successThreshold]; omega),
      cleanupOldData_state]
    exact hstate
  have hreport := call_halfOpen henabled hstate hstate'
  have hsilent : ((b.call probe).2.call report).1 = false := rfl
  refine ⟨(call_turn henabled report).settings.enabled.trans henabled, hstate', ?_, ?_, ?_⟩
  · show ((b.call probe).2.call report).2.halfOpenRequests = j + 1
    rw [hreport.1, hadmit.1, hreturned, hsilent, h.requests]
    rfl
  · show ((b.call probe).2.call report).2.successCount = j + 1
    rw [hreport.2.1, hcount]
    rfl
  · show (p.next b probe).next (b.call probe).2 report = ⟨j + 1, j + 1⟩
    unfold Probes.next
    rw [if_neg (not_not.mpr hstate'), if_neg (not_not.mpr hstate), if_neg (not_not.mpr hstate),
      if_neg (not_not.mpr h.state), hreturned, hsilent, h.account]
    rfl

theorem Probed.after_successes {j : ℕ} (h : Probed b p j) (instant : ℤ) {n : ℕ}
    (hroom : j + n ≤ b.halfOpenMaxRequests) (hmissing : j + n < b.successThreshold) :
    Probed (b.after (succeedingRequests instant n))
      (b.probesAfter p (succeedingRequests instant n)) (j + n) := by
  induction n generalizing b p j with
  | zero => exact h
  | succ n ih =>
    have hnext := h.next instant (by omega) (by omega)
    have hsettings := settings_after h.enabled [⟨.shouldAllowRequest, instant, instant⟩,
      ⟨.recordSuccess, instant, instant⟩]
    have hrest := ih hnext (by rw [hsettings.halfOpenMaxRequests]; omega)
      (by rw [hsettings.successThreshold]; omega)
    rw [Nat.add_right_comm] at hrest
    exact hrest

theorem probesAfter_append (p : Probes) (calls later : List BreakerCall) :
    b.probesAfter p (calls ++ later) = (b.after calls).probesAfter (b.probesAfter p calls) later := by
  induction calls generalizing b p with
  | nil => rfl
  | cons c calls ih => exact ih (p.next b c)

theorem after_recovery (hfresh : b.Fresh) (henabled : b.enabled = true)
    (hlt : b.halfOpenMaxRequests < b.successThreshold) :
    Probed (b.after b.recovery) (b.probesAfter ⟨0, 0⟩ b.recovery) b.halfOpenMaxRequests := by
  obtain ⟨n, hn⟩ : ∃ n, b.minimumRequestThreshold = n + 1 :=
    Nat.exists_eq_succ_of_ne_zero (Nat.one_le_iff_ne_zero.mp b.minimumRequestThreshold_mem.1)
  have hfailed : Failed b (n + 1) 0 :=
    ⟨henabled, hfresh.state, hfresh.failureCount, hfresh.totalRequests, hn⟩
  rcases hfailed.after_failures (Nat.zero_add _) with ⟨hopen, hchange⟩
  have hsettings := settings_after henabled (failures (n + 1))
  have henabled' := hsettings.enabled.trans henabled
  have hhalf : HalfOpens (b.after (failures (n + 1))) b.question :=
    call_getCurrentState henabled' hopen hchange (microseconds b.timeoutSeconds)
      (by rw [hsettings.timeoutSeconds])
  have hcall := call_halfOpens henabled' hhalf
  have hsettings' := hsettings.trans (call_turn henabled' b.question).settings
  have hprobed : Probed ((b.after (failures (n + 1))).call b.question).2
      ((b.probesAfter ⟨0, 0⟩ (failures (n + 1))).next (b.after (failures (n + 1))) b.question)
        0 := by
    refine ⟨hsettings'.enabled.trans henabled, hhalf.2, hcall.2.2.1, hcall.2.2.2, ?_⟩
    unfold Probes.next
    rw [if_neg (not_not.mpr hhalf.2), if_pos hhalf.1]
    rfl
  have hend := hprobed.after_successes (microseconds b.timeoutSeconds)
    (n := b.halfOpenMaxRequests) (by rw [hsettings'.halfOpenMaxRequests, Nat.zero_add])
    (by rw [hsettings'.successThreshold, Nat.zero_add]; exact hlt)
  rw [Nat.zero_add] at hend
  unfold recovery
  rw [hn, after_append, probesAfter_append, after_cons, probesAfter]
  exact hend

theorem admissions_of_full (henabled : b.enabled = true) (hstate : b.state = .halfOpen)
    (hfull : b.halfOpenMaxRequests ≤ b.halfOpenRequests) {calls : List BreakerCall}
    (hcalls : ∀ c ∈ calls, c.method = .shouldAllowRequest ∨ c.method = .getCurrentState) :
    b.admissions calls = 0 := by
  induction calls generalizing b with
  | nil => rfl
  | cons c calls ih =>
    rw [List.forall_mem_cons] at hcalls
    have hcall : (b.call c).1 = false ∧ (b.call c).2.state = .halfOpen := by
      rcases hcalls.1 with hmethod | hmethod
      · refine ⟨?_, state_shouldAllowRequest hstate hmethod⟩
        unfold call
        rw [hmethod]
        exact shouldAllowRequest_of_le henabled hstate hfull c.now c.later
      · unfold call
        rw [hmethod]
        dsimp only
        unfold getCurrentState
        rw [if_neg (not_disabled henabled), hstate]
        exact ⟨rfl, hstate⟩
    have hsettings := (call_turn henabled c).settings
    have hcount := call_halfOpen henabled hstate hcall.2
    rw [admissions, hcall.1, ih (hsettings.enabled.trans henabled) hcall.2 ?_ hcalls.2]
    · rfl
    · rw [hsettings.halfOpenMaxRequests, hcount.1]
      exact Nat.le_add_right_of_le hfull

theorem not_recovers_of_lt (hfresh : b.Fresh) (henabled : b.enabled = true)
    (hlt : b.halfOpenMaxRequests < b.successThreshold) : ¬ b.Recovers b.recovery := by
  have hend := after_recovery hfresh henabled hlt
  intro hrecovers
  rcases hrecovers hend.state (by rw [hend.account]) with hallows | hclosed
  · have hrejects := shouldAllowRequest_of_le hend.enabled hend.state
      (by rw [(settings_after henabled b.recovery).halfOpenMaxRequests, hend.requests]) 0 0
    exact absurd ((hallows 0 0).symm.trans hrejects) nofun
  · exact absurd (hend.state.symm.trans hclosed) nofun

/-- The breaker can always recover if and only if it is disabled, or the requests that the
half-open state admits can reach the threshold of successes. -/
theorem recovers_iff (hfresh : b.Fresh) :
    (∀ calls, b.Recovers calls) ↔
      b.enabled = false ∨ b.successThreshold ≤ b.halfOpenMaxRequests := by
  constructor
  · intro hrecovers
    by_contra hnot
    rw [not_or, Bool.not_eq_false, not_le] at hnot
    exact not_recovers_of_lt hfresh hnot.1 hnot.2 (hrecovers _)
  · rintro (hdisabled | hle) calls
    · exact recovers_of_disabled hdisabled calls
    · by_cases henabled : b.enabled = true
      · exact recovers_of_le hfresh henabled hle calls
      · exact recovers_of_disabled (Bool.not_eq_true _ ▸ henabled) calls

theorem recovers_iff_createFastFail :
    (∀ calls, createFastFail.Recovers calls) ↔
      createFastFail.enabled = false ∨
        createFastFail.successThreshold ≤ createFastFail.halfOpenMaxRequests :=
  recovers_iff ⟨rfl, rfl, rfl, rfl, rfl, rfl, rfl⟩

theorem fresh_createResilient : createResilient.Fresh := ⟨rfl, rfl, rfl, rfl, rfl, rfl, rfl⟩

/-- `create_resilient` asks for five successes and admits three probes. When they have succeeded,
it rejects every request. -/
theorem createResilient_not_recovers :
    createResilient.Fresh ∧ ¬ createResilient.Recovers createResilient.recovery ∧
      ∀ calls : List BreakerCall,
        (∀ c ∈ calls, c.method = .shouldAllowRequest ∨ c.method = .getCurrentState) →
          (createResilient.after createResilient.recovery).admissions calls = 0 := by
  have hlt : createResilient.halfOpenMaxRequests < createResilient.successThreshold := by decide
  have hend := after_recovery fresh_createResilient rfl hlt
  refine ⟨fresh_createResilient, not_recovers_of_lt fresh_createResilient rfl hlt,
    fun calls hcalls => admissions_of_full hend.enabled hend.state ?_ hcalls⟩
  rw [(settings_after rfl _).halfOpenMaxRequests, hend.requests]

end

end OmnibaseCore.Effect.ModelCircuitBreaker
