import OmnibaseCore.Effect.Node

/-!
# How often an operation is executed

A turn of the retry loop that fails either ends the loop or sleeps and leaves the rest of the
attempts (`retryLoop_cons_cases`), so a call executes at most as often as there are attempts.
Whether there is more than one attempt depends on the input and on the defaults of the contract,
and not on whether the operation is idempotent: `executesAtMostOnce_iff`.
-/

namespace OmnibaseCore.Effect

/-! ## The input with defaults -/

section
variable (input : ModelEffectInput) (subcontract : ModelEffectSubcontract)

@[simp] theorem ModelEffectInput.withDefaults_retryEnabled :
    (input.withDefaults subcontract).retryEnabled = input.retryEnabled := rfl

@[simp] theorem ModelEffectInput.withDefaults_operationData :
    (input.withDefaults subcontract).operationData = input.operationData := rfl

@[simp] theorem resolveIoContext_withDefaults (env : EffectEnvironment) (c : EffectIOConfig) :
    resolveIoContext env (input.withDefaults subcontract) c = resolveIoContext env input c := by
  cases c <;> rfl

end

/-! ## A turn of the loop -/

section
variable {env : EffectEnvironment} {handlerType : EnumEffectHandlerType}
  {input : ModelEffectInput} {operationTimeoutMs : ℤ} {formatMs : ℚ → String}
  {start : ℚ} {turns : ℕ → Turn} {maxRetries : ℤ}

theorem countP_attempt_le (input : ModelEffectInput) (success : Bool) (turn : Turn)
    (breakers : CircuitBreakers) :
    (executedEvents turn.outcome ++ (record input success turn breakers).1).countP
      RetryEvent.isExecution ≤ 1 := by
  have hrecord : (record input success turn breakers).1.countP RetryEvent.isExecution = 0 := by
    unfold record
    split_ifs <;> rfl
  rw [List.countP_append, hrecord, Nat.add_zero]
  unfold executedEvents
  split_ifs
  · exact List.countP_le_length
  · exact Nat.zero_le 1

/-- A turn ends the loop after at most one execution, or it has failed, may be repeated, and
sleeps before the other attempts. -/
theorem retryLoop_cons_cases (attempt : ℕ) (rest : List ℕ) (breakers : CircuitBreakers)
    (retryCount : ℕ) {run : RetryRun}
    (hrun : retryLoop env handlerType input operationTimeoutMs formatMs start turns maxRetries
      (attempt :: rest) breakers retryCount = run) :
    run.executions ≤ 1 ∨
      (attempt < maxRetries ∧ input.retryEnabled = true ∧
        floatOverflows (input.retryDelayMs * 2 ^ attempt) = false ∧
        ∃ breakers' retryCount',
          run.executions ≤ 1 + (retryLoop env handlerType input operationTimeoutMs formatMs start
            turns maxRetries rest breakers' retryCount').executions) := by
  rw [retryLoop] at hrun
  dsimp only at hrun
  generalize checkAttempt input operationTimeoutMs formatMs start attempt (turns attempt) breakers =
    admitted at hrun
  rcases admitted with ⟨_ | _, breakers⟩
  · left
    rw [← hrun]
    exact Nat.zero_le 1
  dsimp only at hrun
  cases hexecute : executeOperation env handlerType input (turns attempt).outcome with
  | ok result =>
    rw [hexecute] at hrun
    left
    rw [← hrun]
    exact countP_attempt_le input true (turns attempt) breakers
  | error e =>
    rw [hexecute] at hrun
    dsimp only at hrun
    have hattempt := countP_attempt_le input false (turns attempt) breakers
    split_ifs at hrun with hretry hoverflow
    · left
      rw [← hrun]
      exact hattempt
    · right
      rw [Bool.and_eq_true, decide_eq_true_eq] at hretry
      rw [Bool.not_eq_true] at hoverflow
      refine ⟨hretry.1, hretry.2, hoverflow, (record input false (turns attempt) breakers).2,
        retryCount + 1, ?_⟩
      rw [← hrun]
      show List.countP _ (_ ++ _) ≤ _
      rw [List.countP_append, List.countP_cons_of_neg (by simp [RetryEvent.isExecution])]
      exact Nat.add_le_add_right hattempt _
    · left
      rw [← hrun]
      exact hattempt

/-- What lets the loop come to a second attempt. -/
structure Retries (input : ModelEffectInput) : Prop where
  retryEnabled : input.retryEnabled = true
  maxRetries_pos : 0 < input.maxRetries
  delay_representable : floatOverflows input.retryDelayMs = false

theorem executions_executeWithRetry_le_one (h : ¬ Retries input) (breakers : CircuitBreakers) :
    (executeWithRetry env handlerType input operationTimeoutMs formatMs start turns
      breakers).executions ≤ 1 := by
  unfold executeWithRetry
  dsimp only
  cases hn : (allowedRetries input + 1).toNat with
  | zero => exact Nat.zero_le 1
  | succ n =>
    rw [List.range_succ_eq_map]
    generalize hrun : retryLoop env handlerType input operationTimeoutMs formatMs start turns
      (allowedRetries input) (0 :: (List.range n).map Nat.succ) breakers 0 = run
    rcases retryLoop_cons_cases 0 ((List.range n).map Nat.succ) breakers 0 hrun with
      hstop | ⟨hless, hretry, hdelay, -⟩
    · exact hstop
    · rw [pow_zero, mul_one] at hdelay
      rw [allowedRetries, if_pos hretry] at hless
      exact absurd ⟨hretry, hless, hdelay⟩ h

/-! ## A handler that raises -/

theorem CircuitBreakers.breaker_update (breakers : CircuitBreakers) (operationId : UUID)
    (b : ModelCircuitBreaker) :
    CircuitBreakers.breaker (Function.update breakers operationId (some b)) operationId = b := by
  unfold CircuitBreakers.breaker
  rw [Function.update_self, Option.getD_some]

variable {attempt : ℕ}

theorem exists_checkAttempt_eq_ok {turn : Turn} {breakers : CircuitBreakers}
    (htime : elapsedMs start turn.time < operationTimeoutMs)
    (hallowed : input.circuitBreakerEnabled = true →
      ((breakers.breaker input.operationId).shouldAllowRequest turn.checkNow
        turn.checkLater).1 = true) :
    ∃ breakers', checkAttempt input operationTimeoutMs formatMs start attempt turn breakers =
        (.ok (), breakers') ∧
      (input.circuitBreakerEnabled = true → breakers'.breaker input.operationId =
        ((breakers.breaker input.operationId).shouldAllowRequest turn.checkNow
          turn.checkLater).2) := by
  unfold checkAttempt
  rw [if_neg (not_le.mpr htime)]
  split_ifs with hbreaker
  · exact ⟨_, if_pos (hallowed hbreaker), fun _ => breakers.breaker_update _ _⟩
  · exact ⟨breakers, rfl, fun h => absurd h hbreaker⟩

theorem breaker_record_failure {turn : Turn} {breakers : CircuitBreakers}
    (hbreaker : input.circuitBreakerEnabled = true) :
    (record input false turn breakers).2.breaker input.operationId =
      (breakers.breaker input.operationId).recordFailure turn.recordNow turn.recordLater := by
  unfold record
  rw [if_pos hbreaker]
  exact breakers.breaker_update _ _

theorem exists_error_of_raised (env : EffectEnvironment) (handlerType : EnumEffectHandlerType)
    (input : ModelEffectInput) (e : PyException) :
    ∃ e', executeOperation env handlerType input (.raised e) = .error e' := by
  cases e <;> exact ⟨_, rfl⟩

variable {breakers breakers' : CircuitBreakers}

theorem one_add_le_executions {rest : List ℕ}
    {retryCount : ℕ} {e : PyException} (hraised : (turns attempt).outcome = .raised e)
    (hchecked : checkAttempt input operationTimeoutMs formatMs start attempt (turns attempt)
      breakers = (.ok (), breakers')) (hless : attempt < maxRetries)
    (hretry : input.retryEnabled = true)
    (hdelay : floatOverflows (input.retryDelayMs * 2 ^ attempt) = false) :
    1 + (retryLoop env handlerType input operationTimeoutMs formatMs start turns maxRetries rest
        (record input false (turns attempt) breakers').2 (retryCount + 1)).executions ≤
      (retryLoop env handlerType input operationTimeoutMs formatMs start turns maxRetries
        (attempt :: rest) breakers retryCount).executions := by
  rcases exists_error_of_raised env handlerType input e with ⟨e', he⟩
  rw [retryLoop, hchecked]
  dsimp only
  rw [hraised, he]
  dsimp only
  rw [if_pos (by simp [hless, hretry]), if_neg (by simp [hdelay])]
  show _ ≤ List.countP _ (_ ++ _)
  rw [List.countP_append, List.countP_append,
    List.countP_cons_of_neg (by simp [RetryEvent.isExecution])]
  have hexecuted : (executedEvents (.raised e)).countP RetryEvent.isExecution = 1 := rfl
  rw [hexecuted]
  exact Nat.add_le_add_right (Nat.le_add_right 1 _) _

theorem one_le_executions {rest : List ℕ} {retryCount : ℕ}
    (hexecution : (turns attempt).outcome.isExecution = true)
    (hchecked : checkAttempt input operationTimeoutMs formatMs start attempt (turns attempt)
      breakers = (.ok (), breakers')) :
    1 ≤ (retryLoop env handlerType input operationTimeoutMs formatMs start turns maxRetries
      (attempt :: rest) breakers retryCount).executions := by
  have hexecuted : executedEvents (turns attempt).outcome = [.executed (turns attempt).outcome] :=
    if_pos hexecution
  rw [retryLoop, hchecked]
  dsimp only
  rw [hexecuted]
  cases executeOperation env handlerType input (turns attempt).outcome with
  | ok result => exact List.countP_pos_iff.mpr ⟨_, List.mem_cons_self, rfl⟩
  | error e =>
    dsimp only
    split_ifs <;> exact List.countP_pos_iff.mpr ⟨_, List.mem_cons_self, rfl⟩

end

/-! ## Two executions -/

/-- The clocks stand still, and every attempt has the same outcome. -/
def constantSchedule (outcome : HandlerOutcome) : Schedule where
  effectStart := 0
  retryStart := 0
  turns _ :=
    { time := 0
      checkNow := 0
      checkLater := 0
      outcome := outcome
      recordNow := 0
      recordLater := 0 }
  effectEnd := 0
  formatMs _ := "0"
  subcontractOperations _ := .ok []
  rawOperations _ := .ok []

@[simp] theorem elapsedMs_self (start : ℚ) : elapsedMs start start = 0 := by
  unfold elapsedMs
  rw [sub_self, nearestFloat_zero, zero_mul, nearestFloat_zero]

theorem allows_after_failure :
    ((((ModelCircuitBreaker.createResilient.shouldAllowRequest 0 0).2.recordFailure 0
      0).shouldAllowRequest 0 0).1) = true := rfl

section
variable {env : EffectEnvironment} {handlerType : EnumEffectHandlerType}
  {input : ModelEffectInput} {operationTimeoutMs : ℤ} {formatMs : ℚ → String}

/-- An input that retries is executed at least twice by a handler that raises. -/
theorem two_le_executions (h : Retries input) (htimeout : 0 < operationTimeoutMs)
    (e : PyException) :
    2 ≤ (executeWithRetry env handlerType input operationTimeoutMs formatMs 0
      (constantSchedule (.raised e)).turns fun _ => none).executions := by
  have htime : ∀ attempt, elapsedMs 0 ((constantSchedule (.raised e)).turns attempt).time
      < operationTimeoutMs := by
    intro attempt
    show elapsedMs 0 0 < _
    rw [elapsedMs_self]
    exact_mod_cast htimeout
  unfold executeWithRetry
  rw [allowedRetries, if_pos h.retryEnabled]
  obtain ⟨n, hn⟩ : ∃ n, (input.maxRetries + 1).toNat = n + 2 := by
    have hpos := h.maxRetries_pos
    exact ⟨(input.maxRetries - 1).toNat, by omega⟩
  dsimp only
  rw [hn, List.range_succ_eq_map, List.range_succ_eq_map, List.map_cons]
  -- both attempts are admitted, the second by the breaker that the first has left
  obtain ⟨breakers, hchecked, hbreakers⟩ : ∃ breakers', checkAttempt input operationTimeoutMs
      formatMs 0 0 ((constantSchedule (.raised e)).turns 0) (fun _ => none) =
        (.ok (), breakers') ∧ _ :=
    exists_checkAttempt_eq_ok (htime 0) fun _ => rfl
  obtain ⟨breakers', hchecked', -⟩ : ∃ breakers', checkAttempt input operationTimeoutMs formatMs 0
      1 ((constantSchedule (.raised e)).turns 1)
      (record input false ((constantSchedule (.raised e)).turns 0) breakers).2 =
        (.ok (), breakers') ∧ _ := by
    refine exists_checkAttempt_eq_ok (htime 1) fun hbreaker => ?_
    rw [breaker_record_failure hbreaker, hbreakers hbreaker]
    exact allows_after_failure
  have hsecond : 1 ≤ (retryLoop env handlerType input operationTimeoutMs formatMs 0
      (constantSchedule (.raised e)).turns input.maxRetries
      (1 :: ((List.range n).map Nat.succ).map Nat.succ)
      (record input false ((constantSchedule (.raised e)).turns 0) breakers).2 1).executions :=
    one_le_executions rfl hchecked'
  have hdelay : floatOverflows (input.retryDelayMs * 2 ^ 0) = false := by
    rw [pow_zero, mul_one]
    exact h.delay_representable
  exact le_trans (Nat.add_le_add_left hsecond 1)
    (one_add_le_executions rfl hchecked h.maxRetries_pos h.retryEnabled hdelay)

end

/-! ## Accepted contracts -/

theorem pos_orDefault {timeout : Option ℤ} (h : ∀ ms ∈ timeout, 1 ≤ ms) :
    1 ≤ orDefault timeout defaultOperationTimeoutMs := by
  cases timeout with
  | none => decide
  | some ms =>
    have hms : 1 ≤ ms := h ms rfl
    unfold orDefault
    dsimp only
    rw [if_neg (by omega)]
    exact hms

theorem pos_of_isTimeout {ms : ℤ} (h : isTimeout ms = true) : 1 ≤ ms := by
  unfold isTimeout at h
  rw [Bool.and_eq_true, decide_eq_true_eq] at h
  have hmin : effectTimeoutMinMs = 1000 := rfl
  omega

section
variable {t : TextInterpreter} {subcontract : ModelEffectSubcontract} {op : ModelEffectOperation}

section
variable (h : subcontract.Accepted t)
include h

theorem validate_of_mem_operations
    (hop : op ∈ subcontract.operations) : op.validate t = .ok () := by
  rcases bind_eq_ok h with ⟨units, hunits, -⟩
  have hiff : ∀ op u, ModelEffectOperation.validate t op = .ok u ↔
      op.validate t = .ok () ∧ u = () := by
    intro op u
    exact ⟨fun hu => ⟨hu, rfl⟩, fun hu => hu.1⟩
  exact ((mapM_eq_ok_iff hiff).mp hunits).1 op hop

theorem validate_defaultRetryPolicy :
    subcontract.defaultRetryPolicy.validate t = .ok () := by
  rcases bind_eq_ok h with ⟨units, -, h⟩
  rcases bind_eq_ok h with ⟨u, hpolicy, -⟩
  exact hpolicy

section
variable (hop : op ∈ subcontract.operations)
include hop

theorem fields_of_accepted :
    op.ioConfig.validate t = .ok () ∧ (subcontract.effectiveRetryPolicy op).validate t = .ok () ∧
      checkFields t "ModelEffectOperation"
        [("operation_name", 1 ≤ op.operationName.length &&
            op.operationName.length ≤ effectOperationNameMaxLength),
          ("description", op.description.all fun s =>
            s.length ≤ effectOperationDescriptionMaxLength),
          ("operation_timeout_ms", op.operationTimeoutMs.all isTimeout)] = .ok () := by
  have hvalidate := validate_of_mem_operations h hop
  unfold ModelEffectOperation.validate at hvalidate
  rcases bind_eq_ok hvalidate with ⟨_, hio, hvalidate⟩
  unfold ModelEffectSubcontract.effectiveRetryPolicy
  cases hretry : op.retryPolicy with
  | none =>
    rw [hretry] at hvalidate
    exact ⟨hio, validate_defaultRetryPolicy h, hvalidate⟩
  | some policy =>
    rw [hretry] at hvalidate
    rcases bind_eq_ok hvalidate with ⟨_, hpolicy, hfields⟩
    exact ⟨hio, hpolicy, hfields⟩

theorem pos_operationTimeoutMs :
    ∀ ms ∈ (subcontract.operationDict op).operationTimeoutMs, 1 ≤ ms := by
  have hfields := checkFields_eq_ok_iff.mp (fields_of_accepted h hop).2.2
  have htimeout : op.operationTimeoutMs.all isTimeout = true :=
    hfields ("operation_timeout_ms", op.operationTimeoutMs.all isTimeout) (by simp)
  intro ms hms
  rw [← Option.some.inj hms]
  apply pos_orDefault
  intro ms hms
  rw [Option.all_eq_true] at htimeout
  exact pos_of_isTimeout (htimeout ms hms)

theorem fromDict_operationDict :
    ModelEffectOperationConfig.fromDict t (subcontract.operationDict op) =
      .ok (subcontract.operationDict op) := by
  rcases fields_of_accepted h hop with ⟨hio, hpolicy, hfields⟩
  have hconfig : checkFields t "ModelEffectOperationConfig"
      [("operation_name", 1 ≤ op.operationName.length &&
          op.operationName.length ≤ effectOperationNameMaxLength),
        ("description", op.description.all fun s =>
          s.length ≤ effectOperationDescriptionMaxLength),
        ("operation_timeout_ms", (subcontract.operationDict op).operationTimeoutMs.all fun ms =>
          1 ≤ ms)] = .ok () := by
    rw [checkFields_eq_ok_iff, List.forall_mem_cons, List.forall_mem_cons,
      List.forall_mem_singleton] at hfields ⊢
    refine ⟨hfields.1, hfields.2.1, ?_⟩
    rw [Option.all_eq_true]
    exact fun ms hms => decide_eq_true (pos_operationTimeoutMs h hop ms hms)
  unfold ModelEffectOperationConfig.fromDict
  dsimp only [ModelEffectSubcontract.operationDict]
  rw [hio, hpolicy]
  exact congrArg (fun checked => checked >>= fun _ => pure (subcontract.operationDict op)) hconfig

end

/-- When an input retries, with the defaults of the subcontract filled in. -/
theorem retries_withDefaults_iff (input : ModelEffectInput) :
    Retries (input.withDefaults subcontract) ↔
      input.retryEnabled = true ∧
        0 < (if input.maxRetries = defaultMaxRetries then
          subcontract.defaultRetryPolicy.maxRetries else input.maxRetries) ∧
        floatOverflows input.retryDelayMs = false := by
  have hpolicy := checkFields_eq_ok_iff.mp (validate_defaultRetryPolicy h)
  rw [List.forall_mem_cons, List.forall_mem_singleton] at hpolicy
  have hbase : floatOverflows subcontract.defaultRetryPolicy.baseDelayMs = false := by
    have hbounds := hpolicy.2
    rw [Bool.and_eq_true, decide_eq_true_eq, decide_eq_true_eq] at hbounds
    exact floatOverflows_eq_false (abs_le.mpr ⟨by omega, hbounds.2⟩)
  have hdefault : floatOverflows defaultRetryDelayMs = false :=
    floatOverflows_eq_false (by decide)
  cases hretry : input.retryEnabled with
  | false => exact ⟨fun hr => absurd hr.retryEnabled (by simp [hretry]), fun hr => nomatch hr.1⟩
  | true =>
    have hmax : (input.withDefaults subcontract).maxRetries =
        if input.maxRetries = defaultMaxRetries then subcontract.defaultRetryPolicy.maxRetries
          else input.maxRetries := by
      simp [ModelEffectInput.withDefaults, hretry]
    have hdelay : floatOverflows (input.withDefaults subcontract).retryDelayMs =
        floatOverflows input.retryDelayMs := by
      by_cases hd : input.retryDelayMs = defaultRetryDelayMs
      · simp [ModelEffectInput.withDefaults, hretry, hd, hbase, hdefault]
      · simp [ModelEffectInput.withDefaults, hd]
    constructor
    · intro hr
      exact ⟨rfl, hmax ▸ hr.maxRetries_pos, hdelay ▸ hr.delay_representable⟩
    · intro hr
      exact ⟨hretry, hmax.symm ▸ hr.2.1, hdelay.trans hr.2.2⟩

end

end

/-! ## `process` -/

section
variable {env : EffectEnvironment}

variable {subcontract : ModelEffectSubcontract} {op : ModelEffectOperation}

section
variable (haccepted : subcontract.Accepted env.text)
include haccepted

theorem readOperation_operationDict (hop : op ∈ subcontract.operations) (input : ModelEffectInput)
    (hsubcontract : "effect_subcontract" ∉ input.operationData.keys) (schedule : Schedule) :
    readOperation env schedule input (some [subcontract.operationDict op]) =
      .ok (subcontract.operationDict op) := by
  have hread : readOperations env schedule input (some [subcontract.operationDict op]) =
      .ok [subcontract.operationDict op] := by
    unfold readOperations
    rw [Context.get_of_notMem_keys hsubcontract]
    exact mapM_eq_ok_map (g := id) fun _ hconfig =>
      List.mem_singleton.mp hconfig ▸ fromDict_operationDict haccepted hop
  unfold readOperation
  rw [hread]
  rfl

theorem executions_process (hop : subcontract.operations = [op])
    {input : ModelEffectInput} (hoperations : "operations" ∉ input.operationData.keys)
    (hsubcontract : "effect_subcontract" ∉ input.operationData.keys) (schedule : Schedule)
    (breakers : CircuitBreakers) :
    (process env schedule ⟨some subcontract, breakers⟩ input).executions =
      match resolveIoContext env input op.ioConfig with
      | .error _ => 0
      | .ok context => (executeWithRetry env context.handlerType (input.withDefaults subcontract)
          (orDefault (subcontract.operationDict op).operationTimeoutMs defaultOperationTimeoutMs)
          schedule.formatMs schedule.retryStart schedule.turns breakers).executions := by
  unfold process
  dsimp only
  rw [ModelEffectInput.withDefaults_operationData, if_neg hoperations, hop, List.map_singleton]
  unfold executeEffect
  rw [readOperation_operationDict haccepted (hop ▸ List.mem_singleton_self op)
    (input.withDefaults subcontract) hsubcontract schedule]
  dsimp only
  rw [show (subcontract.operationDict op).ioConfig = op.ioConfig from rfl,
    resolveIoContext_withDefaults]
  cases resolveIoContext env input op.ioConfig <;> rfl

theorem two_le_executions_process {input : ModelEffectInput} (hop : subcontract.operations = [op])
    (hoperations : "operations" ∉ input.operationData.keys)
    (hsubcontract : "effect_subcontract" ∉ input.operationData.keys)
    (hretries : Retries (input.withDefaults subcontract)) {context : ResolvedIOContext}
    (hcontext : resolveIoContext env input op.ioConfig = .ok context) (e : PyException) :
    2 ≤ (process env (constantSchedule (.raised e)) ⟨some subcontract, fun _ => none⟩
      input).executions := by
  rw [executions_process haccepted hop hoperations hsubcontract, hcontext]
  apply two_le_executions hretries
  have hmem : op ∈ subcontract.operations := hop ▸ List.mem_singleton_self op
  exact pos_orDefault (pos_operationTimeoutMs haccepted hmem)

end

/-- The operation of an accepted contract is executed at most once, whatever the handler and the
clocks do, exactly if the caller or the contract leaves it no second attempt. That it is not
idempotent does not matter. -/
theorem executesAtMostOnce_iff {subcontract : ModelEffectSubcontract}
    {op : ModelEffectOperation} {input : ModelEffectInput}
    (haccepted : subcontract.Accepted env.text) (hop : subcontract.operations = [op])
    (_hidempotent : op.getEffectiveIdempotency = false)
    (hoperations : "operations" ∉ input.operationData.keys)
    (hsubcontract : "effect_subcontract" ∉ input.operationData.keys) :
    (∀ (schedule : Schedule) (breakers : CircuitBreakers),
        (process env schedule ⟨some subcontract, breakers⟩ input).executions ≤ 1) ↔
      input.retryEnabled = false ∨
        (if input.maxRetries = defaultMaxRetries then subcontract.defaultRetryPolicy.maxRetries
          else input.maxRetries) ≤ 0 ∨
        floatOverflows input.retryDelayMs = true ∨
        ∀ context, resolveIoContext env input op.ioConfig ≠ .ok context := by
  have hretries := retries_withDefaults_iff haccepted input
  constructor
  · intro honce
    by_contra! hnot
    rcases hnot with ⟨hretry, hmax, hdelay, context, hcontext⟩
    rw [Bool.ne_false_iff] at hretry
    rw [ne_eq, Bool.not_eq_true] at hdelay
    have htwice := two_le_executions_process haccepted hop hoperations hsubcontract
      (hretries.mpr ⟨hretry, hmax, hdelay⟩) hcontext (.other "RuntimeError" "")
    have hle := honce (constantSchedule (.raised (.other "RuntimeError" ""))) fun _ => none
    omega
  · intro hcases schedule breakers
    rw [executions_process haccepted hop hoperations hsubcontract]
    cases hcontext : resolveIoContext env input op.ioConfig with
    | error e => exact Nat.zero_le 1
    | ok context =>
      apply executions_executeWithRetry_le_one
      rw [hretries]
      rintro ⟨hretry, hmax, hdelay⟩
      rcases hcases with hoff | hnone | hoverflow | hresolve
      · exact absurd hretry (by simp [hoff])
      · omega
      · exact absurd hoverflow (by simp [hdelay])
      · exact hresolve context hcontext

end

/-! ### A contract that is executed twice -/

/-- A `POST`, which is not idempotent. -/
def createOrder : ModelEffectOperation where
  operationName := "create_order"
  ioConfig := .http {
    urlTemplate := "orders"
    method := .post
    bodyTemplate := some "order" }

/-- A contract that turns retries off. -/
def createOrderSubcontract : ModelEffectSubcontract where
  subcontractName := "orders"
  operations := [createOrder]
  defaultRetryPolicy := { enabled := false }

/-- A caller that sets no field of its own. -/
def orderInput : ModelEffectInput where
  effectType := .apiCall
  operationId := ⟨0⟩

theorem accepted_createOrderSubcontract :
    createOrderSubcontract.Accepted emptyEnvironment.text := rfl

/-- A caller that turns retries off is safe. -/
theorem executesAtMostOnce_createOrder :
    createOrderSubcontract.Accepted emptyEnvironment.text ∧
      ∀ (schedule : Schedule) (breakers : CircuitBreakers),
        (process emptyEnvironment schedule ⟨some createOrderSubcontract, breakers⟩
          { orderInput with retryEnabled := false }).executions ≤ 1 :=
  ⟨accepted_createOrderSubcontract,
    (executesAtMostOnce_iff accepted_createOrderSubcontract rfl rfl List.not_mem_nil
      List.not_mem_nil).mpr (Or.inl rfl)⟩

/-- The contract turns retries off, and the order is still placed more than once. -/
theorem createOrder_executed_twice :
    createOrderSubcontract.Accepted emptyEnvironment.text ∧
      createOrderSubcontract.operations = [createOrder] ∧
      createOrder.getEffectiveIdempotency = false ∧
      "operations" ∉ orderInput.operationData.keys ∧
      "effect_subcontract" ∉ orderInput.operationData.keys ∧
      ¬ ∀ (schedule : Schedule) (breakers : CircuitBreakers),
        (process emptyEnvironment schedule ⟨some createOrderSubcontract, breakers⟩
          orderInput).executions ≤ 1 := by
  refine ⟨accepted_createOrderSubcontract, rfl, rfl, List.not_mem_nil, List.not_mem_nil,
    fun honce => ?_⟩
  have hretries : Retries (orderInput.withDefaults createOrderSubcontract) :=
    ⟨rfl, by decide, by decide +kernel⟩
  obtain ⟨context, hcontext⟩ : ∃ context,
      resolveIoContext emptyEnvironment orderInput createOrder.ioConfig = .ok context := ⟨_, rfl⟩
  have htwice := two_le_executions_process accepted_createOrderSubcontract rfl List.not_mem_nil
    List.not_mem_nil hretries hcontext (.other "ConnectionError" "")
  have hle := honce (constantSchedule (.raised (.other "ConnectionError" ""))) fun _ => none
  omega

end OmnibaseCore.Effect
