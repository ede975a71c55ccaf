import OmnibaseCore.Dispatch.CommitTheorems

/-!
# A cycle

Where a cycle raises depends on the polled messages, on what happens while they are handled and on
how often they have failed, not on the logs or the commits.
-/

namespace OmnibaseCore.Dispatch

open OmnibaseCore.Dispatch.Runtime

/-! ## Where a cycle raises -/

/-- What `_dispatch_one` returns for a message that has failed as often as that. -/
def disposition (cfg : Config) (attempts : ℕ) (outcome : Outcome) : EnumDeliveryDisposition :=
  match outcome.outbound with
  | some outbound =>
    if (outcome.sendFails.filter fun i => i < outbound.length).isNone then .commit
    else if cfg.maxRetries < attempts + 1 then .dlq
    else .redeliver
  | none => if cfg.maxRetries < attempts + 1 then .dlq else .redeliver

def deadLetterRaises (cfg : Config) (outcome : Outcome) (m : ModelTransportMessage) : Bool :=
  match cfg.dlqTopicResolver m.topic with
  | .error _ => true
  | .ok _ => outcome.deadLetterFails.isSome

/-- The number of messages dispatched and their failures after the loop over a partition, unless
the send of one to its dead-letter topic raises. -/
def attempted (cfg : Config) (outcomes : ℕ → Outcome) :
    List ModelTransportMessage → ℕ → (TopicPartition × ℕ → ℕ) →
      Option (ℕ × (TopicPartition × ℕ → ℕ))
  | [], processed, attempts => some (processed, attempts)
  | m :: rest, processed, attempts =>
    let key := (m.place, m.offset)
    match disposition cfg (attempts key) (outcomes processed) with
    | .commit => attempted cfg outcomes rest (processed + 1) (Function.update attempts key 0)
    | .dlq =>
      if deadLetterRaises cfg (outcomes processed) m then none
      else attempted cfg outcomes rest (processed + 1) (Function.update attempts key 0)
    | .redeliver => some (processed + 1, Function.update attempts key (attempts key + 1))

/-- The partitions from the one on in which the send to a dead-letter topic raises. -/
def remaining (cfg : Config) (outcomes : ℕ → Outcome) :
    List (TopicPartition × List ModelTransportMessage) → ℕ → (TopicPartition × ℕ → ℕ) →
      List (TopicPartition × List ModelTransportMessage)
  | [], _, _ => []
  | (place, messages) :: rest, processed, attempts =>
    match attempted cfg outcomes (sortedAsc (·.offset) messages) processed attempts with
    | none => (place, messages) :: rest
    | some (processed, attempts) => remaining cfg outcomes rest processed attempts

section
variable {cfg : Config} {s s' : Runtime} {outcome : Outcome} {m : ModelTransportMessage}

theorem failed_disposition (h : disposition cfg (s.attempts (m.place, m.offset)) outcome
      = if cfg.maxRetries < s.attempts (m.place, m.offset) + 1 then .dlq else .redeliver)
    (hattempts : s'.attempts = s.attempts) :
    (s'.failed cfg m).1 = disposition cfg (s.attempts (m.place, m.offset)) outcome ∧
      (s'.failed cfg m).2.attempts = Function.update s.attempts (m.place, m.offset)
        (if disposition cfg (s.attempts (m.place, m.offset)) outcome = .redeliver then
          s.attempts (m.place, m.offset) + 1 else 0) := by
  rw [h]
  unfold Runtime.failed
  dsimp only
  rw [hattempts]
  push_cast
  by_cases hmax : cfg.maxRetries < s.attempts (m.place, m.offset) + 1
  · simp [hmax]
  · simp [hmax]

theorem dispatchOne_disposition (cfg : Config) (s : Runtime) (outcome : Outcome)
    (m : ModelTransportMessage) :
    (s.dispatchOne cfg outcome m).1 = disposition cfg (s.attempts (m.place, m.offset)) outcome ∧
      (s.dispatchOne cfg outcome m).2.attempts = Function.update s.attempts (m.place, m.offset)
        (if disposition cfg (s.attempts (m.place, m.offset)) outcome = .redeliver then
          s.attempts (m.place, m.offset) + 1 else 0) := by
  unfold Runtime.dispatchOne
  cases houtbound : outcome.outbound with
  | none => exact failed_disposition (by simp [disposition, houtbound]) rfl
  | some outbound =>
    dsimp only
    cases hfails : outcome.sendFails.filter fun i => i < outbound.length with
    | some i => exact failed_disposition (by simp [disposition, houtbound, hfails]) rfl
    | none =>
      have h : disposition cfg (s.attempts (m.place, m.offset)) outcome = .commit := by
        simp [disposition, houtbound, hfails]
      rw [h]
      exact ⟨rfl, rfl⟩

theorem sendToDlq_raises (cfg : Config) (s : Runtime) (outcome : Outcome)
    (m : ModelTransportMessage) :
    match s.sendToDlq cfg outcome m with
    | .error _ => deadLetterRaises cfg outcome m = true
    | .ok (_, s') => deadLetterRaises cfg outcome m = false ∧ s'.attempts = s.attempts := by
  unfold Runtime.sendToDlq deadLetterRaises
  cases cfg.dlqTopicResolver m.topic with
  | error e => rfl
  | ok topic =>
    cases outcome.deadLetterFails with
    | some e => rfl
    | none => exact ⟨rfl, rfl⟩

end

/-- The attempts after a group, unless a message of it raises. -/
theorem dispatchGroup_attempted (cfg : Config) (outcomes : ℕ → Outcome)
    (messages : List ModelTransportMessage) (processed : ℕ)
    (last : Option ModelTransportMessage) (s : Runtime) :
    attempted cfg outcomes messages processed s.attempts
      = match (s.dispatchGroup cfg outcomes messages processed last).ending with
        | .raised _ => none
        | _ => some ((s.dispatchGroup cfg outcomes messages processed last).processed,
            (s.dispatchGroup cfg outcomes messages processed last).state.attempts) := by
  induction messages generalizing processed last s with
  | nil => rfl
  | cons m rest ih =>
    obtain ⟨hdisposition, hattempts⟩ := dispatchOne_disposition cfg s (outcomes processed) m
    unfold attempted Runtime.dispatchGroup
    dsimp only
    rw [← hdisposition] at hattempts ⊢
    cases hdispatched : s.dispatchOne cfg (outcomes processed) m with
    | mk disposition s' =>
      rw [hdispatched] at hattempts
      cases disposition with
      | commit =>
        rw [if_neg (by simp)] at hattempts
        dsimp only at hattempts ⊢
        rw [← hattempts]
        exact ih (processed + 1) (some m) s'
      | dlq =>
        rw [if_neg (by simp)] at hattempts
        dsimp only at hattempts ⊢
        have hsent := sendToDlq_raises cfg s' (outcomes processed) m
        cases hsend : s'.sendToDlq cfg (outcomes processed) m with
        | error e =>
          rw [hsend] at hsent
          rw [if_pos hsent]
        | ok sent =>
          rw [hsend] at hsent
          rw [if_neg (by simp [hsent.1]), ← hattempts, ← hsent.2]
          exact ih (processed + 1) (some m) sent.2
      | redeliver =>
        rw [if_pos rfl] at hattempts
        dsimp only at hattempts ⊢
        rw [← hattempts]

theorem settle_attempts (run : GroupRun) : (settle run).attempts = run.state.attempts := by
  unfold settle
  cases run.lastCommittable <;> cases run.ending <;> rfl

/-! ## The groups of a batch -/

theorem addToGroup_spec {acc : List (TopicPartition × List ModelTransportMessage)}
    {seen : List ModelTransportMessage} {m : ModelTransportMessage}
    (hnodup : (acc.map Prod.fst).Nodup)
    (hacc : ∀ entry ∈ acc, entry.2 = seen.filter (·.place = entry.1))
    (hnew : m.place ∉ acc.map Prod.fst → ∀ m' ∈ seen, m'.place ≠ m.place) :
    ((addToGroup acc m).map Prod.fst).Nodup ∧
      (∀ entry ∈ addToGroup acc m, entry.2 = (seen ++ [m]).filter (·.place = entry.1)) ∧
      ∀ place, place ∈ (addToGroup acc m).map Prod.fst ↔
        place = m.place ∨ place ∈ acc.map Prod.fst := by
  have hother : ∀ place, place ≠ m.place →
      (seen ++ [m]).filter (·.place = place) = seen.filter (·.place = place) := by
    intro place hplace
    simp [List.filter_append, Ne.symm hplace]
  induction acc with
  | nil =>
    have hempty : seen.filter (·.place = m.place) = [] :=
      List.filter_eq_nil_iff.mpr fun m' hm' => by simpa using hnew List.not_mem_nil m' hm'
    refine ⟨List.nodup_singleton _, fun entry hentry => ?_, fun place => by simp [addToGroup]⟩
    rw [List.mem_singleton.mp hentry, List.filter_append, hempty]
    simp
  | cons entry rest ih =>
    rw [List.map_cons, List.nodup_cons] at hnodup
    unfold addToGroup
    by_cases hplace : entry.1 = m.place
    · rw [if_pos hplace]
      refine ⟨List.nodup_cons.mpr hnodup, fun entry' hentry' => ?_, fun place => ?_⟩
      · rcases List.mem_cons.mp hentry' with rfl | hrest
        · have hentry := hacc entry List.mem_cons_self
          simp [List.filter_append, hentry, hplace]
        · have hne : entry'.1 ≠ m.place := by
            intro hsame
            rw [hplace, ← hsame] at hnodup
            exact hnodup.1 (List.mem_map_of_mem hrest)
          rw [hother _ hne]
          exact hacc entry' (List.mem_cons_of_mem _ hrest)
      · simp [hplace]
    · rw [if_neg hplace]
      have hrest := ih hnodup.2 (fun e he => hacc e (List.mem_cons_of_mem _ he)) fun hnot =>
        hnew (by simpa [Ne.symm hplace] using hnot)
      obtain ⟨hnodup', hfilter, hkeys⟩ := hrest
      refine ⟨?_, fun entry' hentry' => ?_, fun place => ?_⟩
      · rw [List.map_cons, List.nodup_cons, hkeys]
        exact ⟨fun h => h.elim hplace hnodup.1, hnodup'⟩
      · rcases List.mem_cons.mp hentry' with rfl | hentry'
        · rw [hother _ hplace]
          exact hacc entry List.mem_cons_self
        · exact hfilter entry' hentry'
      · rw [List.map_cons, List.mem_cons, hkeys, List.map_cons, List.mem_cons]
        exact or_left_comm

/-- A batch is grouped by place, in the order of arrival. -/
theorem groups_spec (batch : List ModelTransportMessage) :
    ((groups batch).map Prod.fst).Nodup ∧
      (∀ entry ∈ groups batch, entry.2 = batch.filter (·.place = entry.1)) ∧
      ∀ m ∈ batch, m.place ∈ (groups batch).map Prod.fst := by
  have hloop : ∀ (rest seen : List ModelTransportMessage)
      (acc : List (TopicPartition × List ModelTransportMessage)), (acc.map Prod.fst).Nodup →
      (∀ entry ∈ acc, entry.2 = seen.filter (·.place = entry.1)) →
      (∀ m ∈ seen, m.place ∈ acc.map Prod.fst) →
      ((rest.foldl addToGroup acc).map Prod.fst).Nodup ∧
        (∀ entry ∈ rest.foldl addToGroup acc,
          entry.2 = (seen ++ rest).filter (·.place = entry.1)) ∧
        ∀ m ∈ seen ++ rest, m.place ∈ (rest.foldl addToGroup acc).map Prod.fst := by
    intro rest
    induction rest with
    | nil =>
      intro seen acc hnodup hacc hseen
      rw [List.append_nil]
      exact ⟨hnodup, hacc, hseen⟩
    | cons m rest ih =>
      intro seen acc hnodup hacc hseen
      obtain ⟨hnodup', hacc', hkeys⟩ := addToGroup_spec hnodup hacc (m := m)
        fun hnot m' hm' hsame => hnot (hsame ▸ hseen m' hm')
      have hstep := ih (seen ++ [m]) (addToGroup acc m) hnodup' hacc' fun m' hm' => by
        rw [hkeys]
        rcases List.mem_append.mp hm' with hm' | hm'
        · exact Or.inr (hseen m' hm')
        · exact Or.inl (by rw [List.mem_singleton.mp hm'])
      rw [List.append_assoc] at hstep
      exact hstep
  have h := hloop batch [] [] List.nodup_nil (fun _ h => nomatch h) (fun _ h => nomatch h)
  rw [List.nil_append] at h
  exact h

/-! ## The loop over the partitions -/

structure LoopSpec (cfg : Config) (s s' : Runtime)
    (groups left : List (TopicPartition × List ModelTransportMessage))
    (outputs outputs' : List Output) : Prop where
  safe : Safe s' (outputs ++ outputs')
  behind : ∀ place, place ∉ left.map Prod.fst → Behind s' place
  inFlight : ∀ entry ∈ left, ∃ start, InFlight s' entry.1 start entry.2
  suffix : left <:+ groups
  kept : ∀ place ∈ left.map Prod.fst, Kept s s' place
  deadLettered : ∀ entry rest, left = entry :: rest → ∃ front back,
    sortedAsc (·.offset) entry.2 = front ++ back ∧ back ≠ [] ∧
      ∀ m topic, .deadLettered m topic ∈ outputs' → m.place ∉ left.map Prod.fst ∨ m ∈ front
  resolved : ∀ m topic, .deadLettered m topic ∈ outputs' →
    cfg.dlqTopicResolver m.topic = .ok topic

/-- The loop over the groups keeps the runtime safe, and leaves a suffix of them in flight. -/
theorem groupLoop_spec {cfg : Config} {outcomes : ℕ → Outcome}
    {s : Runtime} {outputs : List Output}
    {groups : List (TopicPartition × List ModelTransportMessage)} (processed : ℕ)
    (hsafe : Safe s outputs) (hnodup : (groups.map Prod.fst).Nodup)
    (hflight : ∀ entry ∈ groups, ∃ start, InFlight s entry.1 start entry.2)
    (hbehind : ∀ place, place ∉ groups.map Prod.fst → Behind s place) :
    LoopSpec cfg s (s.groupLoop cfg outcomes groups processed).2.1 groups
        (remaining cfg outcomes groups processed s.attempts) outputs
        (s.groupLoop cfg outcomes groups processed).2.2 ∧
      ((∃ n, (s.groupLoop cfg outcomes groups processed).1 = .ok n) ↔
        remaining cfg outcomes groups processed s.attempts = []) := by
  induction groups generalizing s processed outputs with
  | nil =>
    refine ⟨⟨?_, hbehind, hflight, List.suffix_rfl, ?_, ?_, ?_⟩, iff_of_true ⟨_, rfl⟩ rfl⟩
    · rw [Runtime.groupLoop, List.append_nil]
      exact hsafe
    · exact fun _ h => (nomatch h)
    · exact fun _ _ h => (nomatch h)
    · exact fun _ _ h => (nomatch h)
  | cons entry rest ih =>
    obtain ⟨place, messages⟩ := entry
    obtain ⟨start, hfirst⟩ := hflight _ List.mem_cons_self
    rw [List.map_cons, List.nodup_cons] at hnodup
    unfold Runtime.groupLoop remaining
    generalize hrun : s.dispatchGroup cfg outcomes (sortedAsc (·.offset) messages) processed none
      = run
    obtain ⟨front, back, hsplit, hspec⟩ := dispatchGroup_spec cfg outcomes
      (sortedAsc (·.offset) messages) processed none s
    rw [hrun] at hspec
    have hattempted := dispatchGroup_attempted cfg outcomes (sortedAsc (·.offset) messages)
      processed none s
    rw [hrun, ← settle_attempts] at hattempted
    dsimp only
    rw [hattempted]
    -- the loop goes on once the group is settled, whose place is not met again
    have hreturns : (∀ e, run.ending ≠ .raised e) →
        LoopSpec cfg s ((settle run).groupLoop cfg outcomes rest run.processed).2.1
            ((place, messages) :: rest)
            (remaining cfg outcomes rest run.processed (settle run).attempts) outputs
            (run.outputs ++ ((settle run).groupLoop cfg outcomes rest run.processed).2.2) ∧
          ((∃ n, ((settle run).groupLoop cfg outcomes rest run.processed).1 = .ok n) ↔
            remaining cfg outcomes rest run.processed (settle run).attempts = []) := by
      intro hends
      obtain ⟨hsafe', hbehind', hkept⟩ := settle_spec hsafe hfirst hrun hends
      have hne : ∀ e ∈ rest, e.1 ≠ place := by
        intro e he hsame
        exact hnodup.1 (List.mem_map.mpr ⟨e, he, hsame⟩)
      obtain ⟨hloop, hresult⟩ := ih run.processed hsafe' hnodup.2
        (fun e he => by
          obtain ⟨start', h⟩ := hflight e (List.mem_cons_of_mem _ he)
          exact ⟨start', h.kept (hkept e.1 (hne e he))⟩)
        (fun other hother => by
          by_cases hsame : other = place
          · rw [hsame]
            exact hbehind'
          · exact (hbehind other (by simpa [hsame] using hother)).kept (hkept other hsame))
      have hleft : ∀ other ∈ (remaining cfg outcomes rest run.processed (settle run).attempts).map Prod.fst,
          other ≠ place := by
        intro other hother hsame
        obtain ⟨e, he, rfl⟩ := List.mem_map.mp hother
        exact hne e (hloop.suffix.subset he) hsame
      refine ⟨⟨?_, hloop.behind, hloop.inFlight, hloop.suffix.trans (List.suffix_cons ..),
        fun other hother => ?_, fun entry' rest' hentry => ?_, fun m topic hm => ?_⟩, hresult⟩
      · rw [← List.append_assoc]
        exact hloop.safe
      · have h := hkept other (hleft other hother)
        have h' := hloop.kept other hother
        exact ⟨h.logs.trans h'.logs, h'.committed.trans h.committed, h'.position.trans h.position⟩
      · obtain ⟨front', back', hsplit', hback, hdead⟩ := hloop.deadLettered entry' rest' hentry
        refine ⟨front', back', hsplit', hback, fun m topic hm => ?_⟩
        rcases List.mem_append.mp hm with hm | hm
        · have hmem : m ∈ messages := by
            rw [← (perm_sortedAsc (·.offset) messages).mem_iff, hsplit]
            exact List.mem_append_left _ (hspec.deadLettered m topic hm).1
          exact Or.inl fun hother => hleft _ hother (hfirst.record m hmem).1
        · exact hdead m topic hm
      · rcases List.mem_append.mp hm with hm | hm
        · exact (hspec.deadLettered m topic hm).2
        · exact hloop.resolved m topic hm
    cases hending : run.ending with
    | finished => exact hreturns fun e h => nomatch hending.symm.trans h
    | redeliver m => exact hreturns fun e h => nomatch hending.symm.trans h
    | raised e =>
      have hkept := kept_of_grows hspec.grows hspec.transport
      refine ⟨⟨hsafe.grows hspec.grows hspec.transport (List.subset_append_left ..),
        fun other hother => (hbehind other hother).kept (hkept other), fun e he => ?_,
        List.suffix_rfl, fun other _ => hkept other, fun entry' rest' hentry => ?_,
        fun m topic hm => ?_⟩, ?_⟩
      · obtain ⟨start', h⟩ := hflight e he
        exact ⟨start', h.kept (hkept e.1)⟩
      · obtain ⟨rfl, -⟩ := List.cons_eq_cons.mp hentry
        exact ⟨front, back, hsplit, hspec.raised e hending,
          fun m topic hm => Or.inr (hspec.deadLettered m topic hm).1⟩
      · exact (hspec.deadLettered m topic hm).2
      · exact iff_of_false (fun ⟨_, h⟩ => nomatch h) (List.cons_ne_nil _ _)

/-! ## A cycle -/

def Runtime.batch (cfg : Config) (s : Runtime) : List ModelTransportMessage :=
  match s.transport.poll s.broker cfg.maxMessages with
  | .error _ => []
  | .ok (batch, _) => batch

/-- The partitions that a cycle leaves when it raises: the one in which it does, and those after
it. -/
def Runtime.left (cfg : Config) (s : Runtime) (outcomes : ℕ → Outcome) :
    List (TopicPartition × List ModelTransportMessage) :=
  remaining cfg outcomes (groups (s.batch cfg)) 0 s.attempts

section
variable {cfg : Config} {s s' s₁ : Runtime} {outputs : List Output}
  {batch : List ModelTransportMessage} {t' : InMemoryTransport}

structure PollSpec (s s₁ : Runtime) (batch : List ModelTransportMessage)
    (outputs : List Output) : Prop where
  safe : Safe s₁ outputs
  logs : s₁.broker.logs = s.broker.logs
  committed : s₁.committed = s.committed
  record : ∀ m ∈ batch, (s.broker.logs m.place)[m.offset]? = some m
  inFlight : ∀ entry ∈ groups batch, ∃ start, InFlight s₁ entry.1 start entry.2
  behind : ∀ place, place ∉ (groups batch).map Prod.fst → Behind s₁ place

/-- What a poll returns is in flight, and all that it leaves can still be fetched. -/
theorem poll_spec (hsafe : Safe s outputs) (hbehind : ∀ place, Behind s place)
    (hpoll : s.transport.poll s.broker cfg.maxMessages = .ok (batch, t')) :
    PollSpec s { s with transport := t' } batch outputs := by
  have hfetched := poll_fetched hpoll
  obtain ⟨-, hgroups, hkeys⟩ := groups_spec batch
  have hgroup : t'.group = s.transport.group := by rw [hfetched.same]
  have hpending : t'.chaosPending
      = s.transport.chaosPending.drop cfg.maxMessages.toNat := by rw [hfetched.same]
  have hcommitted : Runtime.committed { s with transport := t' } = s.committed := by
    funext place
    unfold Runtime.committed
    rw [hgroup]
  -- what chaos gives back has been committed before
  have hduplicate : ∀ m ∈ s.transport.chaosPending.take cfg.maxMessages.toNat,
      (s.broker.logs m.place)[m.offset]? = some m ∧ (m.offset : ℤ) ≤ s.committed m.place :=
    fun m hm => hsafe.pending m (List.mem_of_mem_take hm)
  have hrecord : ∀ m ∈ batch, (s.broker.logs m.place)[m.offset]? = some m ∧
      ((m.offset : ℤ) ≤ s.committed m.place ∨
        s.position m.place ≤ m.offset ∧ m.offset < t'.position s.broker m.place) := by
    intro m hm
    rcases hfetched.source m hm with hm | ⟨place, o, hle, hlt, ho⟩
    · exact ⟨(hduplicate m hm).1, Or.inl (hduplicate m hm).2⟩
    · obtain ⟨rfl, rfl⟩ := hsafe.placed place o m ho
      exact ⟨ho, Or.inr ⟨hle, hlt⟩⟩
  refine ⟨⟨hsafe.placed, ?_, ?_, ?_⟩, rfl, hcommitted, fun m hm => (hrecord m hm).1,
    fun entry hentry => ⟨s.position entry.1, ?_⟩, fun place hplace => ?_⟩
  · rw [hcommitted]
    exact hsafe.neg_one_le
  · rw [hcommitted]
    exact hsafe.handled
  · rw [hcommitted]
    intro m hm
    dsimp only at hm
    rw [hpending] at hm
    exact hsafe.pending m (List.mem_of_mem_drop hm)
  · have hmem : ∀ m, m ∈ entry.2 ↔ m ∈ batch ∧ m.place = entry.1 := by
      intro m
      rw [hgroups entry hentry, List.mem_filter, decide_eq_true_eq]
    refine ⟨fun m hm => ?_, ?_, hfetched.le entry.1, fun o hle hlt => ?_, fun m hm => ?_,
      fun m hm hnew => ?_⟩
    · obtain ⟨hm, hplace⟩ := (hmem m).mp hm
      rw [← hplace]
      exact ⟨rfl, (hrecord m hm).1⟩
    · rw [hcommitted]
      exact hbehind entry.1
    · obtain ⟨m, hm, ho⟩ := hfetched.delivered entry.1 o hle hlt
      exact ⟨m, (hmem m).mpr ⟨hm, (hsafe.placed entry.1 o m ho).1⟩, ho⟩
    · obtain ⟨hm, hplace⟩ := (hmem m).mp hm
      rw [hcommitted, ← hplace]
      exact (hrecord m hm).2
    · -- a duplicate is of a committed message
      have hplace := ((hmem m).mp hm).2
      have hfresh : m ∉ s.transport.chaosPending.take cfg.maxMessages.toNat := by
        intro hold
        have hle := (hduplicate m hold).2
        rw [hcommitted] at hnew
        rw [hplace] at hle
        omega
      rw [hgroups entry hentry]
      exact (List.filter_sublist.count_le m).trans (hfetched.once hsafe.placed m hfresh)
  · have hsame : t'.position s.broker place = s.position place := by
      refine le_antisymm (not_lt.mp fun hlt => ?_) (hfetched.le place)
      obtain ⟨m, hm, ho⟩ := hfetched.delivered place _ le_rfl hlt
      refine hplace ?_
      rw [← (hsafe.placed place _ m ho).1]
      exact hkeys m hm
    unfold Behind
    rw [hcommitted]
    show (t'.position s.broker place : ℤ) ≤ _
    rw [hsame]
    exact hbehind place

variable (cfg) in
/-- What a cycle leaves. -/
theorem runOnce_spec (outcomes : ℕ → Outcome) (hsafe : Safe s outputs)
    (hbehind : ∀ place, Behind s place) :
    ∃ s₁, PollSpec s s₁ (s.batch cfg) outputs ∧
      LoopSpec cfg s₁ (s.runOnce cfg outcomes).2.1 (groups (s.batch cfg)) (s.left cfg outcomes)
        outputs (s.runOnce cfg outcomes).2.2 ∧
      ((∃ n, (s.runOnce cfg outcomes).1 = .ok n) → s.left cfg outcomes = []) := by
  unfold Runtime.left Runtime.runOnce Runtime.batch
  cases hpoll : s.transport.poll s.broker cfg.maxMessages with
  | error e =>
    refine ⟨s, ⟨hsafe, rfl, rfl, ?_, ?_, fun place _ => hbehind place⟩, ⟨?_, fun place _ =>
      hbehind place, ?_, List.suffix_rfl, ?_, ?_, ?_⟩, fun _ => rfl⟩
    · exact fun _ h => (nomatch h)
    · exact fun _ h => (nomatch h)
    · rw [List.append_nil]
      exact hsafe
    · exact fun _ h => (nomatch h)
    · exact fun _ h => (nomatch h)
    · exact fun _ _ h => (nomatch h)
    · exact fun _ _ h => (nomatch h)
  | ok polled =>
    obtain ⟨batch, t'⟩ := polled
    have hspec := poll_spec hsafe hbehind hpoll
    obtain ⟨hloop, hresult⟩ :=
      groupLoop_spec 0 hspec.safe (groups_spec batch).1 hspec.inFlight hspec.behind
    exact ⟨_, hspec, hloop, hresult.mp⟩

end

end OmnibaseCore.Dispatch
