import OmnibaseCore.Effect.CircuitBreakerLaws

/-!
# The window of a circuit breaker

A breaker counts results, not times: its counters are the latest of the results since it closed
(`Tallied`). They start anew only when the last failure is older than the window, and only after
the decision to open, so results that are older than the window are counted, and successes in it
may be forgotten. A breaker opens on evidence inside the window if neither happens
(`opensOnEvidence_of_countsWindow`).
-/

namespace OmnibaseCore.Effect

/-! ## Results -/

structure BreakerResult where
  time : ℤ
  failure : Bool

/-- The methods that the callers of a breaker use. -/
def IsRequestMethod (m : Method) : Prop :=
  m = .shouldAllowRequest ∨ m = .recordSuccess ∨ m = .recordFailure

instance (m : Method) : Decidable (IsRequestMethod m) :=
  inferInstanceAs (Decidable (_ ∨ _))

namespace ModelCircuitBreaker

def recorded (c : BreakerCall) : List BreakerResult :=
  match c.method with
  | .recordSuccess => [⟨c.now, false⟩]
  | .recordFailure => [⟨c.now, true⟩]
  | _ => []

def resultsNext (b : ModelCircuitBreaker) (results : List BreakerResult) (c : BreakerCall) :
    List BreakerResult :=
  if b.state ≠ .closed ∧ (b.call c).2.state = .closed then [] else recorded c ++ results

def resultsAfter : ModelCircuitBreaker → List BreakerResult → List BreakerCall →
    List BreakerResult
  | _, results, [] => results
  | b, results, c :: calls => resultsAfter (b.call c).2 (b.resultsNext results c) calls

def windowStart (b : ModelCircuitBreaker) (now : ℤ) : ℤ := now - microseconds b.windowSizeSeconds

/-! ## The law -/

/-- The results inside the window, with a failure that is recorded now, are reason to open. -/
def Evidence (b : ModelCircuitBreaker) (results : List BreakerResult) (now : ℤ) : Prop :=
  let window := (⟨now, true⟩ :: results).filter fun r => b.windowStart now ≤ r.time
  let failures := window.countP BreakerResult.failure
  b.minimumRequestThreshold ≤ window.length ∧
    (b.failureThreshold ≤ failures ∨ b.failureRateThreshold ≤ (failures : ℚ) / window.length)

def OpensOnEvidence (b : ModelCircuitBreaker) (calls : List BreakerCall) : Prop :=
  ∀ done c rest, calls = done ++ c :: rest → c.method = .recordFailure →
    (b.after done).state = .closed → ((b.after done).call c).2.state = .open →
      Evidence b (b.resultsAfter [] done) c.now

/-- The counters are about the window, for a failure that is recorded now: no result that is
counted is older than the window, and where the rate decides no result inside the window has been
forgotten and the exact rate is reached. -/
structure CountsWindow (b : ModelCircuitBreaker) (results : List BreakerResult) (now : ℤ) :
    Prop where
  fresh : ∀ r ∈ results.take b.totalRequests, b.windowStart now ≤ r.time
  rate : b.failureThreshold ≤ b.failureCount + 1 ∨
    (∀ r ∈ results.drop b.totalRequests, r.failure = false → r.time < b.windowStart now) ∧
      b.failureRateThreshold ≤ ((b.failureCount + 1 : ℕ) : ℚ) / (b.totalRequests + 1 : ℕ)

/-- Every failure that the closed breaker opens for finds counters that are about the window. -/
def CountsWindowThroughout (b : ModelCircuitBreaker) (calls : List BreakerCall) : Prop :=
  ∀ done c rest, calls = done ++ c :: rest → c.method = .recordFailure →
    (b.after done).state = .closed →
      shouldOpenCircuit { b.after done with
        failureCount := (b.after done).failureCount + 1
        totalRequests := (b.after done).totalRequests + 1 } = true →
          CountsWindow (b.after done) (b.resultsAfter [] done) c.now

/-! ## What is counted -/

/-- The counters are those of the latest results, and a failure that they do not count is older
than the window. -/
structure Tallied (b : ModelCircuitBreaker) (results : List BreakerResult) (now : ℤ) : Prop where
  total_le : b.totalRequests ≤ results.length
  failures : b.failureCount = (results.take b.totalRequests).countP BreakerResult.failure
  forgotten : ∀ r ∈ results.drop b.totalRequests, r.failure = true → r.time < b.windowStart now
  latest : ∀ r ∈ results, r.failure = true →
    ∃ last, b.lastFailureTime = some last ∧ r.time ≤ last
  timed : ∀ r ∈ results, r.time ≤ now

structure SameThresholds (b b' : ModelCircuitBreaker) : Prop where
  windowSizeSeconds : b'.windowSizeSeconds = b.windowSizeSeconds
  minimumRequestThreshold : b'.minimumRequestThreshold = b.minimumRequestThreshold
  failureThreshold : b'.failureThreshold = b.failureThreshold
  failureRateThreshold : b'.failureRateThreshold = b.failureRateThreshold

section
variable {b b' : ModelCircuitBreaker} {results : List BreakerResult} {now : ℤ}

theorem SameThresholds.refl (b : ModelCircuitBreaker) : SameThresholds b b :=
  ⟨rfl, rfl, rfl, rfl⟩

theorem SameThresholds.trans {b'' : ModelCircuitBreaker} (h : SameThresholds b b')
    (h' : SameThresholds b' b'') : SameThresholds b b'' :=
  ⟨h'.windowSizeSeconds.trans h.windowSizeSeconds,
    h'.minimumRequestThreshold.trans h.minimumRequestThreshold,
    h'.failureThreshold.trans h.failureThreshold,
    h'.failureRateThreshold.trans h.failureRateThreshold⟩

theorem SameThresholds.windowStart (h : SameThresholds b b') (now : ℤ) :
    b'.windowStart now = b.windowStart now := by
  unfold ModelCircuitBreaker.windowStart
  rw [h.windowSizeSeconds]

theorem Tallied.congr (h : Tallied b results now) (hsame : SameThresholds b b')
    (htotal : b'.totalRequests = b.totalRequests) (hfailures : b'.failureCount = b.failureCount)
    (hlast : b'.lastFailureTime = b.lastFailureTime) : Tallied b' results now := by
  refine ⟨?_, ?_, ?_, ?_, h.timed⟩
  · rw [htotal]
    exact h.total_le
  · rw [hfailures, htotal]
    exact h.failures
  · rw [htotal, hsame.windowStart]
    exact h.forgotten
  · rw [hlast]
    exact h.latest

theorem windowStart_mono {now' : ℤ} (h : now ≤ now') : b.windowStart now ≤ b.windowStart now' := by
  unfold windowStart
  omega

theorem Tallied.mono (h : Tallied b results now) {now' : ℤ} (hle : now ≤ now') :
    Tallied b results now' where
  total_le := h.total_le
  failures := h.failures
  forgotten r hr hfailure := (h.forgotten r hr hfailure).trans_le (windowStart_mono hle)
  latest := h.latest
  timed r hr := (h.timed r hr).trans hle

theorem tallied_nil (htotal : b.totalRequests = 0) (hfailures : b.failureCount = 0) (now : ℤ) :
    Tallied b [] now where
  total_le := by simp [htotal]
  failures := by simp [hfailures]
  forgotten r hr := by simp at hr
  latest r hr := by simp at hr
  timed r hr := by simp at hr

theorem Tallied.cleanupOldData (h : Tallied b results now) :
    Tallied (b.cleanupOldData now) results now := by
  unfold ModelCircuitBreaker.cleanupOldData
  cases hlast : b.lastFailureTime with
  | none => exact h
  | some last =>
    dsimp only
    split_ifs with hold
    · refine ⟨Nat.zero_le _, rfl, ?_, ?_, h.timed⟩
      · intro r hr hfailure
        obtain ⟨last', hlast', hle⟩ := h.latest r (List.mem_of_mem_drop hr) hfailure
        rw [hlast, Option.some.injEq] at hlast'
        show r.time < b.windowStart now
        unfold windowStart
        omega
      · intro r hr hfailure
        obtain ⟨last', hlast', hle⟩ := h.latest r hr hfailure
        rw [hlast, Option.some.injEq] at hlast'
        exact ⟨last, rfl, by omega⟩
    · exact h

theorem SameThresholds.cleanupOldData (h : SameThresholds b b') (now : ℤ) :
    SameThresholds b (b'.cleanupOldData now) := by
  apply h.trans
  rcases cleanupOldData_eq (b := b') now with heq | heq <;> rw [heq]
  · exact SameThresholds.refl b'
  · exact ⟨rfl, rfl, rfl, rfl⟩

theorem Tallied.cons (h : Tallied b results now) (r : BreakerResult)
    (hthresholds : SameThresholds b b') (htotal : b'.totalRequests = b.totalRequests + 1)
    (hfailures : b'.failureCount = b.failureCount + r.failure.toNat) (htime : r.time ≤ now)
    (hlatest : ∀ r' ∈ r :: results, r'.failure = true →
      ∃ last, b'.lastFailureTime = some last ∧ r'.time ≤ last) :
    Tallied b' (r :: results) now := by
  refine ⟨?_, ?_, ?_, hlatest, List.forall_mem_cons.mpr ⟨htime, h.timed⟩⟩
  · rw [htotal, List.length_cons]
    exact Nat.succ_le_succ h.total_le
  · rw [htotal, hfailures, List.take_succ_cons, List.countP_cons, h.failures]
    cases r.failure <;> rfl
  · rw [htotal, List.drop_succ_cons, hthresholds.windowStart]
    exact h.forgotten

/-! ## Calls -/

theorem Tallied.shouldAllowRequest (h : Tallied b results now) (henabled : b.enabled = true)
    (later : ℤ) : Tallied (b.shouldAllowRequest now later).2 results now ∧
      SameThresholds b (b.shouldAllowRequest now later).2 ∧
      ((b.shouldAllowRequest now later).2.state = .closed → b.state = .closed) := by
  have hclean := h.cleanupOldData
  have hsame := (SameThresholds.refl b).cleanupOldData now
  unfold ModelCircuitBreaker.shouldAllowRequest
  rw [if_neg (not_disabled henabled)]
  dsimp only
  rw [cleanupOldData_state]
  cases hstate : b.state with
  | closed => exact ⟨hclean, hsame, fun _ => rfl⟩
  | «open» =>
    dsimp only
    split_ifs
    · refine ⟨hclean.congr ⟨rfl, rfl, rfl, rfl⟩ rfl rfl rfl, hsame.trans ⟨rfl, rfl, rfl, rfl⟩, ?_⟩
      exact fun h => (nomatch h)
    · exact ⟨hclean, hsame, fun h => by simp [hstate] at h⟩
  | halfOpen =>
    dsimp only
    split_ifs
    · refine ⟨hclean.congr ⟨rfl, rfl, rfl, rfl⟩ rfl rfl rfl, hsame.trans ⟨rfl, rfl, rfl, rfl⟩, ?_⟩
      exact fun h => by simp at h
    · exact ⟨hclean, hsame, fun h => by simp [hstate] at h⟩

theorem Tallied.recordSuccess_of_stays (h : Tallied b results now) (henabled : b.enabled = true)
    (later : ℤ) (hstays : b.state = .halfOpen → b.successCount + 1 < b.successThreshold) :
    Tallied (b.recordSuccess now later) (⟨now, false⟩ :: results) now ∧
      SameThresholds b (b.recordSuccess now later) ∧
      (b.recordSuccess now later).state = b.state := by
  have hlatest : ∀ r ∈ (⟨now, false⟩ : BreakerResult) :: results, r.failure = true →
      ∃ last, b.lastFailureTime = some last ∧ r.time ≤ last :=
    List.forall_mem_cons.mpr ⟨fun h => (nomatch h), h.latest⟩
  unfold ModelCircuitBreaker.recordSuccess
  rw [if_neg (not_disabled henabled)]
  dsimp only
  by_cases hstate : b.state = .halfOpen
  · rw [if_pos hstate, if_neg (by have := hstays hstate; omega)]
    refine ⟨Tallied.cleanupOldData ?_, SameThresholds.cleanupOldData ?_ now,
      cleanupOldData_state now⟩
    · exact h.cons ⟨now, false⟩ ⟨rfl, rfl, rfl, rfl⟩ rfl rfl le_rfl hlatest
    · exact ⟨rfl, rfl, rfl, rfl⟩
  · rw [if_neg hstate]
    refine ⟨Tallied.cleanupOldData ?_, SameThresholds.cleanupOldData ?_ now,
      cleanupOldData_state now⟩
    · exact h.cons ⟨now, false⟩ ⟨rfl, rfl, rfl, rfl⟩ rfl rfl le_rfl hlatest
    · exact ⟨rfl, rfl, rfl, rfl⟩

theorem tallied_recordSuccess_of_closes (henabled : b.enabled = true) (now later : ℤ)
    (hstate : b.state = .halfOpen) (henough : b.successThreshold ≤ b.successCount + 1) :
    Tallied (b.recordSuccess now later) [] now ∧ SameThresholds b (b.recordSuccess now later) ∧
      (b.recordSuccess now later).state = .closed := by
  unfold ModelCircuitBreaker.recordSuccess
  rw [if_neg (not_disabled henabled)]
  dsimp only
  rw [if_pos hstate, if_pos henough]
  refine ⟨Tallied.cleanupOldData ?_, SameThresholds.cleanupOldData ?_ now,
    cleanupOldData_state now⟩
  · exact tallied_nil rfl rfl now
  · exact ⟨rfl, rfl, rfl, rfl⟩

theorem Tallied.recordSuccess (h : Tallied b results now) (henabled : b.enabled = true)
    (later : ℤ) :
    Tallied (b.recordSuccess now later)
        (if b.state ≠ .closed ∧ (b.recordSuccess now later).state = .closed then []
          else ⟨now, false⟩ :: results) now ∧
      SameThresholds b (b.recordSuccess now later) := by
  by_cases hcloses : b.state = .halfOpen ∧ b.successThreshold ≤ b.successCount + 1
  · have hclosed := tallied_recordSuccess_of_closes henabled now later hcloses.1 hcloses.2
    rw [if_pos ⟨by simp [hcloses.1], hclosed.2.2⟩]
    exact ⟨hclosed.1, hclosed.2.1⟩
  · have hstays := h.recordSuccess_of_stays henabled later fun hstate =>
      Nat.lt_of_not_le fun henough => hcloses ⟨hstate, henough⟩
    rw [hstays.2.2, if_neg fun hclosed => hclosed.1 hclosed.2]
    exact ⟨hstays.1, hstays.2.1⟩

/-- A recorded failure is one of the results that the window tallies. -/
theorem Tallied.recordFailure (h : Tallied b results now) (henabled : b.enabled = true)
    (later : ℤ) :
    Tallied (b.recordFailure now later) (⟨now, true⟩ :: results) now ∧
      SameThresholds b (b.recordFailure now later) ∧
      ((b.recordFailure now later).state = .closed → b.state = .closed) := by
  have hlatest : ∀ r ∈ (⟨now, true⟩ : BreakerResult) :: results, r.failure = true →
      ∃ last, some now = some last ∧ r.time ≤ last :=
    List.forall_mem_cons.mpr ⟨fun _ => ⟨now, rfl, le_rfl⟩, fun r hr _ => ⟨now, rfl, h.timed r hr⟩⟩
  have hcounted : Tallied { b with
      failureCount := b.failureCount + 1
      totalRequests := b.totalRequests + 1
      lastFailureTime := some now } (⟨now, true⟩ :: results) now :=
    h.cons ⟨now, true⟩ ⟨rfl, rfl, rfl, rfl⟩ rfl rfl le_rfl hlatest
  have hopened : Tallied (transitionToOpen { b with
      failureCount := b.failureCount + 1
      totalRequests := b.totalRequests + 1
      lastFailureTime := some now } later) (⟨now, true⟩ :: results) now :=
    hcounted.congr ⟨rfl, rfl, rfl, rfl⟩ rfl rfl rfl
  unfold ModelCircuitBreaker.recordFailure
  rw [if_neg (not_disabled henabled)]
  dsimp only
  cases hstate : b.state with
  | closed =>
    dsimp only
    rw [hstate] at hcounted hopened
    split_ifs
    · refine ⟨hopened.cleanupOldData, SameThresholds.cleanupOldData ?_ now, fun _ => rfl⟩
      exact ⟨rfl, rfl, rfl, rfl⟩
    · refine ⟨hcounted.cleanupOldData, SameThresholds.cleanupOldData ?_ now, fun _ => rfl⟩
      exact ⟨rfl, rfl, rfl, rfl⟩
  | «open» =>
    dsimp only
    rw [hstate] at hcounted
    refine ⟨hcounted.cleanupOldData, SameThresholds.cleanupOldData ?_ now, fun h => by simp at h⟩
    exact ⟨rfl, rfl, rfl, rfl⟩
  | halfOpen =>
    dsimp only
    rw [hstate] at hopened
    refine ⟨hopened.cleanupOldData, SameThresholds.cleanupOldData ?_ now, ?_⟩
    · exact ⟨rfl, rfl, rfl, rfl⟩
    · exact fun h => by simp [transitionToOpen] at h

theorem enabled_call (henabled : b.enabled = true) (c : BreakerCall) :
    (b.call c).2.enabled = true :=
  (call_turn henabled c).settings.enabled.trans henabled

/-- Every call of a user of the breaker keeps the tally. -/
theorem Tallied.next (h : Tallied b results now) (henabled : b.enabled = true) {c : BreakerCall}
    (hmethod : IsRequestMethod c.method) (hle : now ≤ c.now) :
    Tallied (b.call c).2 (b.resultsNext results c) c.now ∧ SameThresholds b (b.call c).2 := by
  have h := h.mono hle
  unfold resultsNext recorded call
  rcases hmethod with hmethod | hmethod | hmethod
  · rw [hmethod]
    have hallow := h.shouldAllowRequest henabled c.later
    refine ⟨?_, hallow.2.1⟩
    rw [if_neg fun hcloses => hcloses.1 (hallow.2.2 hcloses.2)]
    exact hallow.1
  · rw [hmethod]
    exact h.recordSuccess henabled c.later
  · rw [hmethod]
    have hfailure := h.recordFailure henabled c.later
    refine ⟨?_, hfailure.2.1⟩
    rw [if_neg fun hcloses => hcloses.1 (hfailure.2.2 hcloses.2)]
    exact hfailure.1

/-! ## Runs -/

/-- After any calls at nondecreasing times, the counters are those of the latest results. -/
theorem Tallied.after (h : Tallied b results now) (henabled : b.enabled = true)
    {calls : List BreakerCall} (hmethods : ∀ c ∈ calls, IsRequestMethod c.method)
    (htimes : calls.Pairwise fun c c' => c.now ≤ c'.now) (hstart : ∀ c ∈ calls, now ≤ c.now)
    {later : ℤ} (hlater : ∀ c ∈ calls, c.now ≤ later) (hle : now ≤ later) :
    Tallied (b.after calls) (b.resultsAfter results calls) later ∧
      SameThresholds b (b.after calls) ∧ (b.after calls).enabled = true := by
  induction calls generalizing b results now with
  | nil => exact ⟨h.mono hle, SameThresholds.refl b, henabled⟩
  | cons c calls ih =>
    rw [List.forall_mem_cons] at hmethods hstart hlater
    rw [List.pairwise_cons] at htimes
    have hnext := h.next henabled hmethods.1 hstart.1
    have hrest := ih hnext.1 (enabled_call henabled c) hmethods.2 htimes.2 htimes.1 hlater.2
      hlater.1
    exact ⟨hrest.1, hnext.2.trans hrest.2.1, hrest.2.2⟩

/-! ## Opening -/

theorem shouldOpenCircuit_of_opens (henabled : b.enabled = true) (hstate : b.state = .closed)
    {later : ℤ} (hopens : (b.recordFailure now later).state = .open) :
    shouldOpenCircuit { b with
      failureCount := b.failureCount + 1
      totalRequests := b.totalRequests + 1 } = true := by
  by_contra hnot
  unfold ModelCircuitBreaker.recordFailure at hopens
  rw [if_neg (not_disabled henabled)] at hopens
  dsimp only at hopens
  rw [hstate] at hopens
  dsimp only at hopens
  have hsame : shouldOpenCircuit { b with
      failureCount := b.failureCount + 1
      totalRequests := b.totalRequests + 1
      lastFailureTime := some now } = false := by
    rw [Bool.not_eq_true] at hnot
    exact hnot
  rw [hstate] at hsame
  rw [if_neg (by simp [hsame])] at hopens
  simp at hopens

theorem windowStart_le (now : ℤ) : b.windowStart now ≤ now := by
  unfold windowStart microseconds
  omega

theorem window_eq (hfresh : ∀ r ∈ results.take b.totalRequests, b.windowStart now ≤ r.time) :
    ((⟨now, true⟩ :: results).filter fun r => b.windowStart now ≤ r.time) =
      ⟨now, true⟩ :: (results.take b.totalRequests ++
        (results.drop b.totalRequests).filter fun r => b.windowStart now ≤ r.time) := by
  have htaken : ((results.take b.totalRequests).filter fun r => b.windowStart now ≤ r.time) =
      results.take b.totalRequests :=
    List.filter_eq_self.mpr fun r hr => decide_eq_true (hfresh r hr)
  rw [List.filter_cons_of_pos (by simp [windowStart_le])]
  nth_rewrite 1 [← List.take_append_drop b.totalRequests results]
  rw [List.filter_append, htaken]

theorem Tallied.countP_forgotten (h : Tallied b results now) :
    ((results.drop b.totalRequests).filter fun r => b.windowStart now ≤ r.time).countP
      BreakerResult.failure = 0 := by
  rw [List.countP_eq_zero]
  intro r hr hfailure
  rw [List.mem_filter, decide_eq_true_eq] at hr
  have hold := h.forgotten r hr.1 hfailure
  omega

/-- A breaker that opens where it counts the window has evidence in it. -/
theorem evidence_of_countsWindow (h : Tallied b results now)
    (hopens : shouldOpenCircuit { b with
      failureCount := b.failureCount + 1
      totalRequests := b.totalRequests + 1 } = true)
    (hcounts : CountsWindow b results now) : Evidence b results now := by
  unfold Evidence
  rw [window_eq hcounts.fresh]
  dsimp only
  rw [List.countP_cons, List.countP_append, h.countP_forgotten, ← h.failures, List.length_cons,
    List.length_append, List.length_take_of_le h.total_le]
  have hminimum : b.minimumRequestThreshold ≤ b.totalRequests + 1 := by
    by_contra hfew
    simp [shouldOpenCircuit, Nat.lt_of_not_le hfew] at hopens
  refine ⟨by omega, ?_⟩
  rcases hcounts.rate with hfailures | ⟨hforgotten, hrate⟩
  · exact .inl hfailures
  · -- nothing else lies inside the window
    have hnone :
        ((results.drop b.totalRequests).filter fun r => b.windowStart now ≤ r.time) = [] := by
      rw [List.filter_eq_nil_iff]
      intro r hr hinside
      rw [decide_eq_true_eq] at hinside
      cases hfailure : r.failure with
      | true =>
        have hold := h.forgotten r hr hfailure
        omega
      | false =>
        have hold := hforgotten r hr hfailure
        omega
    rw [hnone]
    exact .inr hrate

theorem SameThresholds.evidence (h : SameThresholds b b') :
    Evidence b' results now ↔ Evidence b results now := by
  unfold Evidence
  rw [h.windowStart, h.minimumRequestThreshold, h.failureThreshold, h.failureRateThreshold]

/-- The breaker opens on evidence inside the window, if every failure that it opens for finds
counters that are about the window. -/
theorem opensOnEvidence_of_countsWindow (henabled : b.enabled = true)
    (hfailures : b.failureCount = 0) (htotal : b.totalRequests = 0) {calls : List BreakerCall}
    (hmethods : ∀ c ∈ calls, IsRequestMethod c.method)
    (htimes : calls.Pairwise fun c c' => c.now ≤ c'.now)
    (hcounts : CountsWindowThroughout b calls) : OpensOnEvidence b calls := by
  intro done c rest hcalls hmethod hstate hopens
  rw [hcalls, List.pairwise_append] at htimes
  rw [hcalls] at hmethods
  obtain ⟨start, hstart⟩ : ∃ start : ℤ, (∀ c' ∈ done, start ≤ c'.now) ∧ start ≤ c.now := by
    cases done with
    | nil => exact ⟨c.now, by simp, le_rfl⟩
    | cons first done =>
      refine ⟨first.now, List.forall_mem_cons.mpr ⟨le_rfl, (List.pairwise_cons.mp htimes.1).1⟩, ?_⟩
      exact htimes.2.2 first List.mem_cons_self c List.mem_cons_self
  have hdone := (tallied_nil htotal hfailures start).after henabled
    (fun c' hc' => hmethods c' (List.mem_append_left _ hc')) htimes.1 hstart.1
    (fun c' hc' => htimes.2.2 c' hc' c List.mem_cons_self) hstart.2
  have hfails : ((b.after done).recordFailure c.now c.later).state = .open := by
    unfold call at hopens
    rw [hmethod] at hopens
    exact hopens
  have hreached := shouldOpenCircuit_of_opens hdone.2.2 hstate hfails
  apply hdone.2.1.evidence.mp
  apply evidence_of_countsWindow hdone.1 hreached
  exact hcounts done c rest hcalls hmethod hstate hreached

end

theorem countsWindowThroughout_outage : CountsWindowThroughout {} outage := by
  have hprefixes : ∀ n < 10, shouldOpenCircuit { after {} (outage.take n) with
        failureCount := (after {} (outage.take n)).failureCount + 1
        totalRequests := (after {} (outage.take n)).totalRequests + 1 } = true →
      (∀ r ∈ (resultsAfter {} [] (outage.take n)).take (after {} (outage.take n)).totalRequests,
        windowStart (after {} (outage.take n)) 0 ≤ r.time) ∧
      (after {} (outage.take n)).failureThreshold ≤
        (after {} (outage.take n)).failureCount + 1 := by
    decide +kernel
  intro done c rest hcalls _ _ hreached
  have hdone : done = outage.take done.length := by
    rw [hcalls, List.take_left]
  have hlength : done.length < 10 := by
    have hten := congrArg List.length hcalls
    simp [outage] at hten
    omega
  have hc : c ∈ outage := by simp [hcalls]
  rw [List.eq_of_mem_replicate hc]
  rw [hdone] at hreached ⊢
  have hcounts := hprefixes done.length hlength hreached
  exact ⟨hcounts.1, .inl hcounts.2⟩

theorem opensOnEvidence_outage : OpensOnEvidence {} outage :=
  opensOnEvidence_of_countsWindow rfl rfl rfl (by decide +kernel) (by decide +kernel)
    countsWindowThroughout_outage

/-- Failures that come less often than the window is long. -/
def sparseFailures : List BreakerCall :=
  (List.range 10).map fun i => ⟨.recordFailure, i * 100000000, i * 100000000⟩

/-- They open the breaker when the window holds two of them: it is never empty. -/
theorem sparseFailures_not_opensOnEvidence :
    (∀ c ∈ sparseFailures, IsRequestMethod c.method) ∧
      (sparseFailures.Pairwise fun c c' => c.now ≤ c'.now) ∧
      ¬ OpensOnEvidence {} sparseFailures := by
  refine ⟨by decide +kernel, by decide +kernel, fun hlaw => ?_⟩
  have hevidence := hlaw (sparseFailures.take 9) ⟨.recordFailure, 900000000, 900000000⟩ []
    rfl rfl (by decide +kernel) (by decide +kernel)
  revert hevidence
  unfold Evidence
  decide +kernel

end ModelCircuitBreaker

end OmnibaseCore.Effect
