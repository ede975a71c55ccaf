import OmnibaseCore.Dispatch.LedgerTheorems

/-!
# Poison messages are bounded

Over a transport without chaos mode, every offset is dispatched once more than it may be retried,
at most, and terminalized once. Every cycle that dispatches anything uses up one of these
dispatches, so `drain` comes to an end, if its bound on cycles does not come before.

* `Tracks.run`: a run of one runtime.
* `poison_bounded`: every runtime over a transport without chaos mode.
-/

namespace OmnibaseCore.Dispatch

/-! ## Runs of one runtime -/

def Step.isRestart : Step → Bool
  | .restart _ _ _ => true
  | _ => false

namespace System

def stepEvents (s : System) : Step → List Event
  | .runOnce outcomes => s.runtime.cycleEvents s.config outcomes
  | _ => []

def events (s : System) : List Step → List Event
  | [] => []
  | step :: rest => s.stepEvents step ++ (s.step step).events rest

/-! ## Drain -/

/-- What `drain` raises. -/
inductive DrainError
  /-- what a cycle raises -/
  | cycle (e : DispatchError)
  /-- the last cycle has still processed messages -/
  | exceeded (maxCycles : ℤ)

/-- The loop of `drain`, where so many cycles are left. -/
def drainLoop (maxCycles : ℤ) (outcomes : ℕ → ℕ → Outcome) :
    ℕ → ℕ → ℕ → System → Except DrainError ℕ × System
  | 0, _, _, s => (.error (.exceeded maxCycles), s)
  | cycles + 1, turn, total, s =>
    let s' := s.step (.runOnce (outcomes turn))
    match s.cycle (outcomes turn) with
    | .error e => (.error (.cycle e), s')
    | .ok processed =>
      let total := total + processed
      if processed = 0 then (.ok total, s')
      else drainLoop maxCycles outcomes cycles (turn + 1) total s'

/-- `drain`. The outcomes are numbered by cycle and by message. -/
def drain (s : System) (outcomes : ℕ → ℕ → Outcome) (maxCycles : ℤ := 1000) :
    Except DrainError ℕ × System :=
  drainLoop maxCycles outcomes maxCycles.toNat 0 0 (s.step .start)

/-- The cycles of `drain`. -/
def drainSteps (outcomes : ℕ → ℕ → Outcome) (turn cycles : ℕ) : List Step :=
  (List.range' turn cycles).map fun k => .runOnce (outcomes k)

def assigned (s : System) : List TopicPartition := s.runtime.transport.places s.runtime.broker

/-- A cycle appends nothing on the consumed topics. -/
def Quiet (s : System) (outcomes : ℕ → Outcome) : Prop :=
  ∀ place ∈ s.assigned, (s.step (.runOnce outcomes)).runtime.broker.logs place
    = s.runtime.broker.logs place

/-- The number of messages of the consumed topics that have not been delivered. -/
def undeliveredCount (s : System) : ℕ :=
  undelivered s.runtime.broker s.runtime.transport s.assigned.toFinset

end System

structure DeadLettersArrive (cfg : Config) (topics : List String)
    (outcomes : ℕ → ℕ → Outcome) : Prop where
  resolves : ∀ topic ∈ topics, ∃ dlq, cfg.dlqTopicResolver topic = .ok dlq
  sends : ∀ turn i, (outcomes turn i).deadLetterFails = none

/-! ## The ledger of a run -/

structure Tracks (cfg : Config) (orderly : Prop) (base : TopicPartition → ℕ) (s : System)
    (events : List Event) : Prop where
  config : s.config = cfg
  chaosFree : ChaosFree s.runtime
  ledger : Ledger cfg orderly base s.runtime.position s.runtime.attempts events

section
variable {cfg : Config} {orderly : Prop} {base : TopicPartition → ℕ} {s : System}
  {events : List Event}

theorem Tracks.step (h : Tracks cfg orderly base s events) {step : Step}
    (hstep : step.isRestart = false)
    (hcycle : orderly → ∀ outcomes, step = .runOnce outcomes → ∃ n, s.cycle outcomes = .ok n) :
    Tracks cfg orderly base (s.step step) (events ++ s.stepEvents step) := by
  cases step with
  | send send =>
    have hgrows : s.runtime.broker.Grows (s.step (.send send)).runtime.broker :=
      (s.runtime.broker.appendAll_spec [send]).1
    have hposition : (s.step (.send send)).runtime.position = s.runtime.position :=
      funext fun place => (kept_of_grows hgrows rfl place).position
    refine ⟨h.config, ⟨hgrows.placed h.chaosFree.placed, h.chaosFree.mode, h.chaosFree.pending⟩, ?_⟩
    rw [hposition]
    show Ledger cfg orderly base _ s.runtime.attempts (events ++ [])
    rw [List.append_nil]
    exact h.ledger
  | start =>
    show Tracks cfg orderly base _ (events ++ [])
    rw [List.append_nil]
    exact ⟨h.config, ⟨h.chaosFree.placed, h.chaosFree.mode, h.chaosFree.pending⟩, h.ledger⟩
  | close =>
    show Tracks cfg orderly base _ (events ++ [])
    rw [List.append_nil]
    exact ⟨h.config, ⟨h.chaosFree.placed, h.chaosFree.mode, h.chaosFree.pending⟩, h.ledger⟩
  | restart config topics chaosDuplicate => exact nomatch hstep
  | runOnce outcomes =>
    have hcycles := h.ledger.cycle outcomes h.chaosFree
    rw [← h.config] at hcycles ⊢
    refine ⟨rfl, hcycles.chaosFree, hcycles.ledger.pending, hcycles.ledger.settled,
      fun horderly => ?_, fun horderly => ?_⟩
    · exact hcycles.ledger.terminalized ⟨horderly, hcycle horderly outcomes rfl⟩
    · exact hcycles.ledger.ordered ⟨horderly, hcycle horderly outcomes rfl⟩

theorem Tracks.run (h : Tracks cfg orderly base s events) {steps : List Step}
    (hsteps : ∀ step ∈ steps, step.isRestart = false)
    (hcycles : orderly → EveryCycle (fun s outcomes => ∃ n, s.cycle outcomes = .ok n) s steps) :
    Tracks cfg orderly base (s.run steps) (events ++ s.events steps) := by
  induction steps generalizing s events with
  | nil =>
    show Tracks cfg orderly base s (events ++ [])
    rw [List.append_nil]
    exact h
  | cons step rest ih =>
    have hstep := h.step (hsteps step List.mem_cons_self) fun horderly => (hcycles horderly).1
    have hrest := ih hstep (fun step' hstep' => hsteps step' (List.mem_cons_of_mem step hstep'))
      fun horderly => (hcycles horderly).2
    rw [List.append_assoc] at hrest
    exact hrest

end

/-! ## The cycles of drain -/

theorem countP_eq_sum_filter {α κ : Type*} [DecidableEq κ] (key : α → κ) (p : α → Bool)
    {keys : Finset κ} {l : List α} (h : ∀ a ∈ l, key a ∈ keys) :
    l.countP p = ∑ k ∈ keys, (l.filter fun a => key a = k).countP p := by
  induction l with
  | nil => simp
  | cons a rest ih =>
    rw [List.forall_mem_cons] at h
    have hone : ∀ k, ((a :: rest).filter fun a => key a = k).countP p
        = (rest.filter fun a => key a = k).countP p + if key a = k then [a].countP p else 0 := by
      intro k
      by_cases hk : key a = k
      · rw [List.filter_cons_of_pos (by simpa using hk), if_pos hk, List.countP_cons,
          List.countP_singleton]
      · rw [List.filter_cons_of_neg (by simpa using hk), if_neg hk, Nat.add_zero]
    rw [Finset.sum_congr rfl fun k _ => hone k, Finset.sum_add_distrib, ← ih h.2,
      Finset.sum_ite_eq keys (key a), if_pos h.1, List.countP_cons, List.countP_singleton]

section
variable {cfg : Config} {orderly : Prop} {base : TopicPartition → ℕ} {s : System}
  {events : List Event} {outcomes : ℕ → ℕ → Outcome}

theorem drainSteps_succ (turn cycles : ℕ) : System.drainSteps outcomes turn (cycles + 1)
    = .runOnce (outcomes turn) :: System.drainSteps outcomes (turn + 1) cycles := by
  unfold System.drainSteps
  rw [List.range'_succ, List.map_cons]

variable {turn cycles : ℕ}

theorem isRestart_drainSteps :
    ∀ step ∈ System.drainSteps outcomes turn cycles, step.isRestart = false := by
  intro step hstep
  obtain ⟨k, -, rfl⟩ := List.mem_map.mp hstep
  rfl

theorem drainLoop_spec (cycles turn total : ℕ)
    (h : EveryCycle (fun s outcomes => ∃ n, s.cycle outcomes = .ok n) s
      (System.drainSteps outcomes turn cycles)) :
    (∃ t, ∀ maxCycles more,
        (System.drainLoop maxCycles outcomes (cycles + more) turn total s).1 = .ok t) ∨
      cycles ≤ (s.events (System.drainSteps outcomes turn cycles)).countP Event.isDispatch := by
  induction cycles generalizing turn total s with
  | zero => exact Or.inr (Nat.zero_le _)
  | succ cycles ih =>
    rw [drainSteps_succ] at h ⊢
    obtain ⟨hcycle, hrest⟩ := h
    obtain ⟨n, hn⟩ := hcycle _ rfl
    have hcount : (s.events (.runOnce (outcomes turn) :: System.drainSteps outcomes (turn + 1)
        cycles)).countP Event.isDispatch = n + ((s.step (.runOnce (outcomes turn))).events
          (System.drainSteps outcomes (turn + 1) cycles)).countP Event.isDispatch := by
      rw [System.events, List.countP_append, processed_runOnce hn]
      rfl
    have hunfold : ∀ maxCycles more,
        System.drainLoop maxCycles outcomes (cycles + 1 + more) turn total s
          = if n = 0 then (.ok (total + n), s.step (.runOnce (outcomes turn)))
            else System.drainLoop maxCycles outcomes (cycles + more) (turn + 1) (total + n)
              (s.step (.runOnce (outcomes turn))) := by
      intro maxCycles more
      rw [Nat.add_right_comm, System.drainLoop, hn]
    by_cases hzero : n = 0
    · refine Or.inl ⟨total + n, fun maxCycles more => ?_⟩
      rw [hunfold, if_pos hzero]
    · rcases ih (turn + 1) (total + n) hrest with ⟨t, ht⟩ | hle
      · refine Or.inl ⟨t, fun maxCycles more => ?_⟩
        rw [hunfold, if_neg hzero]
        exact ht maxCycles more
      · rw [hcount]
        exact Or.inr (by omega)

theorem assigned_runOnce (s : System) (outcomes : ℕ → Outcome) :
    (s.step (.runOnce outcomes)).assigned = s.assigned := by
  have hcontinues := continues_runOnce s.config s.runtime outcomes
  unfold System.assigned InMemoryTransport.places
  show (sortedAsc id (s.runtime.runOnce s.config outcomes).2.1.transport.topics).flatMap _ = _
  rw [hcontinues.topics]
  show List.flatMap (fun topic => (List.range (s.runtime.runOnce s.config
    outcomes).2.1.broker.numPartitions).map _) _ = _
  rw [hcontinues.numPartitions]

theorem mem_drainEvents (h : Tracks cfg False base s events)
    (hquiet : EveryCycle System.Quiet s (System.drainSteps outcomes turn cycles)) {e : Event}
    (he : e ∈ s.events (System.drainSteps outcomes turn cycles)) :
    e.message.place ∈ s.assigned ∧ s.runtime.position e.message.place ≤ e.message.offset ∧
      e.message.offset < (s.runtime.broker.logs e.message.place).length := by
  induction cycles generalizing turn s events with
  | zero => exact absurd he List.not_mem_nil
  | succ cycles ih =>
    rw [drainSteps_succ] at hquiet he
    rcases List.mem_append.mp he with he | he
    · exact mem_cycleEvents h.chaosFree he
    · obtain ⟨hplace, hle, hlt⟩ := ih (h.step rfl nofun) hquiet.2 he
      rw [assigned_runOnce] at hplace
      rw [hquiet.1 _ rfl _ hplace] at hlt
      exact ⟨hplace, ((h.ledger.cycle (outcomes turn) h.chaosFree).position_le _).trans (by
        rw [← h.config]
        exact hle), hlt⟩

def Event.key (e : Event) : TopicPartition × ℕ := (e.message.place, e.message.offset)

theorem filter_key_eq (events : List Event) (place : TopicPartition) (o : ℕ) :
    (events.filter fun e => e.key = (place, o)) = eventsAt events place o := by
  unfold eventsAt
  apply List.filter_congr
  intro e _
  rw [Bool.eq_iff_iff, isAt_eq_true_iff, decide_eq_true_eq]
  exact Prod.mk_inj

def System.undeliveredOffsets (s : System) : Finset (TopicPartition × ℕ) :=
  s.assigned.toFinset.biUnion fun place =>
    (Finset.Ico (s.runtime.position place) (s.runtime.broker.logs place).length).image
      (Prod.mk place)

theorem mem_undeliveredOffsets {place : TopicPartition} {o : ℕ} :
    (place, o) ∈ s.undeliveredOffsets ↔ place ∈ s.assigned ∧
      s.runtime.position place ≤ o ∧ o < (s.runtime.broker.logs place).length := by
  simp [System.undeliveredOffsets]

theorem card_undeliveredOffsets_le (s : System) :
    s.undeliveredOffsets.card ≤ s.undeliveredCount := by
  refine Finset.card_biUnion_le.trans (Finset.sum_le_sum fun place _ => ?_)
  exact Finset.card_image_le.trans (Nat.card_Ico _ _).le

theorem countP_drainEvents_le (h : Tracks cfg False base s events)
    (hquiet : EveryCycle System.Quiet s (System.drainSteps outcomes turn cycles)) :
    (s.events (System.drainSteps outcomes turn cycles)).countP Event.isDispatch
      ≤ s.undeliveredCount * (cfg.maxRetries + 1).toNat := by
  have hend : Tracks cfg False base (s.run (System.drainSteps outcomes turn cycles))
      (events ++ s.events (System.drainSteps outcomes turn cycles)) :=
    h.run isRestart_drainSteps nofun
  have hkeys : ∀ e ∈ s.events (System.drainSteps outcomes turn cycles),
      e.key ∈ s.undeliveredOffsets := fun e he =>
    mem_undeliveredOffsets.mpr (mem_drainEvents h hquiet he)
  have hone : ∀ k ∈ s.undeliveredOffsets,
      ((s.events (System.drainSteps outcomes turn cycles)).filter fun e => e.key = k).countP
        Event.isDispatch ≤ (cfg.maxRetries + 1).toNat := by
    intro ⟨place, o⟩ _
    have hsettled := (hend.ledger.all_settled place o).dispatches
    unfold eventsAt at hsettled
    rw [List.filter_append, List.countP_append] at hsettled
    rw [filter_key_eq]
    unfold eventsAt
    omega
  calc (s.events (System.drainSteps outcomes turn cycles)).countP Event.isDispatch
      = ∑ k ∈ s.undeliveredOffsets, ((s.events (System.drainSteps outcomes turn cycles)).filter
          fun e => e.key = k).countP Event.isDispatch := countP_eq_sum_filter Event.key _ hkeys
    _ ≤ ∑ _k ∈ s.undeliveredOffsets, (cfg.maxRetries + 1).toNat := Finset.sum_le_sum hone
    _ = s.undeliveredOffsets.card * (cfg.maxRetries + 1).toNat := by
        rw [Finset.sum_const, smul_eq_mul]
    _ ≤ s.undeliveredCount * (cfg.maxRetries + 1).toNat :=
        Nat.mul_le_mul_right _ (card_undeliveredOffsets_le s)

/-! ### Cycles that return -/

theorem attempted_ne_none {outcomes : ℕ → Outcome} {messages : List ModelTransportMessage}
    (h : ∀ m ∈ messages, ∀ i, deadLetterRaises cfg (outcomes i) m = false) (processed : ℕ)
    (attempts : TopicPartition × ℕ → ℕ) :
    attempted cfg outcomes messages processed attempts ≠ none := by
  induction messages generalizing processed attempts with
  | nil => exact Option.some_ne_none _
  | cons m rest ih =>
    rw [List.forall_mem_cons] at h
    unfold attempted
    dsimp only
    cases disposition cfg (attempts (m.place, m.offset)) (outcomes processed) with
    | commit => exact ih h.2 _ _
    | redeliver => exact Option.some_ne_none _
    | dlq =>
      dsimp only
      rw [if_neg (by simp [h.1 processed])]
      exact ih h.2 _ _

theorem groupLoop_returns {outcomes : ℕ → Outcome} {s : Runtime}
    {groups : List (TopicPartition × List ModelTransportMessage)}
    (h : ∀ entry ∈ groups, ∀ m ∈ entry.2, ∀ i, deadLetterRaises cfg (outcomes i) m = false)
    (processed : ℕ) : ∃ n, (s.groupLoop cfg outcomes groups processed).1 = .ok n := by
  induction groups generalizing processed s with
  | nil => exact ⟨processed, rfl⟩
  | cons entry rest ih =>
    rw [List.forall_mem_cons] at h
    have hattempted := dispatchGroup_attempted cfg outcomes (sortedAsc (·.offset) entry.2)
      processed none s
    have hne := @attempted_ne_none cfg outcomes (sortedAsc (·.offset) entry.2)
      (fun m hm => h.1 m ((perm_sortedAsc _ entry.2).mem_iff.mp hm)) processed s.attempts
    unfold Runtime.groupLoop
    dsimp only
    cases hending : (s.dispatchGroup cfg outcomes (sortedAsc (·.offset) entry.2) processed
      none).ending with
    | raised e =>
      rw [hending] at hattempted
      exact absurd hattempted hne
    | finished => exact ih h.2 _
    | redeliver m => exact ih h.2 _

theorem topic_of_assigned {t : InMemoryTransport} {b : InMemoryBroker} {place : TopicPartition}
    (h : place ∈ t.places b) : place.1 ∈ t.topics := by
  unfold InMemoryTransport.places at h
  obtain ⟨topic, htopic, h⟩ := List.mem_flatMap.mp h
  obtain ⟨partition, -, rfl⟩ := List.mem_map.mp h
  exact (perm_sortedAsc id t.topics).mem_iff.mp htopic

theorem drainSteps_return {turn cycles : ℕ} (h : Tracks cfg False base s events)
    (hstarted : s.runtime.transport.started = true) (hmax : 1 ≤ cfg.maxMessages)
    (harrive : DeadLettersArrive cfg s.runtime.transport.topics outcomes) :
    EveryCycle (fun s outcomes => ∃ n, s.cycle outcomes = .ok n) s
      (System.drainSteps outcomes turn cycles) := by
  induction cycles generalizing turn s events with
  | zero => trivial
  | succ cycles ih =>
    have hcontinues := continues_runOnce s.config s.runtime (outcomes turn)
    rw [drainSteps_succ]
    refine ⟨fun outcomes' heq => ?_, ih (h.step rfl nofun) ?_ ?_⟩
    · obtain rfl := Step.runOnce.inj heq
      unfold System.cycle Runtime.runOnce
      cases hpoll : s.runtime.transport.poll s.runtime.broker s.config.maxMessages with
      | error e =>
        unfold InMemoryTransport.poll at hpoll
        rw [if_neg (not_not_intro hstarted), if_neg (by rw [h.config]; omega)] at hpoll
        exact nomatch hpoll
      | ok polled =>
        obtain ⟨batch, t'⟩ := polled
        have hfresh := freshBatch_of_poll h.chaosFree.placed h.chaosFree.pending hpoll
        apply groupLoop_returns
        intro entry hentry m hm i
        rw [(groups_spec batch).2.1 entry hentry, List.mem_filter] at hm
        have htopic := topic_of_assigned (hfresh.assigned m hm.1)
        obtain ⟨dlq, hdlq⟩ := harrive.resolves m.topic htopic
        unfold deadLetterRaises
        rw [h.config, hdlq, harrive.sends]
        rfl
    · exact hcontinues.started.trans hstarted
    · show DeadLettersArrive cfg (s.runtime.runOnce s.config (outcomes turn)).2.1.transport.topics _
      rw [hcontinues.topics]
      exact harrive

theorem drain_returns (h : Tracks cfg False base s events) (hmax : 1 ≤ cfg.maxMessages)
    (harrive : DeadLettersArrive cfg s.runtime.transport.topics outcomes)
    (hquiet : EveryCycle System.Quiet (s.step .start) (System.drainSteps outcomes 0
      ((s.step .start).undeliveredCount * (cfg.maxRetries + 1).toNat + 1))) :
    ∃ total, ∀ maxCycles : ℤ,
      ((s.step .start).undeliveredCount * (cfg.maxRetries + 1).toNat + 1 : ℕ) ≤ maxCycles →
        (s.drain outcomes maxCycles).1 = .ok total := by
  have hstart : Tracks cfg False base (s.step .start) (events ++ []) := h.step rfl nofun
  have hreturn := @drainSteps_return cfg base (s.step .start) (events ++ []) outcomes 0
    ((s.step .start).undeliveredCount * (cfg.maxRetries + 1).toNat + 1) hstart rfl hmax harrive
  have hcount := countP_drainEvents_le hstart hquiet
  rcases drainLoop_spec _ 0 0 hreturn with ⟨total, htotal⟩ | hle
  · refine ⟨total, fun maxCycles hcycles => ?_⟩
    have hpositive : 0 ≤ maxCycles := (Int.natCast_nonneg _).trans hcycles
    obtain ⟨more, hmore⟩ := Nat.exists_eq_add_of_le ((Int.le_toNat hpositive).mpr hcycles)
    unfold System.drain
    rw [hmore]
    exact htotal maxCycles more
  · -- every cycle would have dispatched something
    omega

end

/-! ## Every runtime -/

theorem extends_settle (run : Runtime.GroupRun) :
    run.state.broker.Extends (Runtime.settle run).broker := by
  have hcommit : ∀ last, run.state.broker.Extends (run.state.commitLast last).broker := by
    intro last
    cases last with
    | none => exact run.state.broker.grows_refl.extends
    | some m =>
      have hbroker := extends_commitOffset run.state.broker run.state.transport.group m.place
        m.offset
      show run.state.broker.Extends (InMemoryTransport.commit ..).2
      unfold InMemoryTransport.commit
      dsimp only
      split_ifs <;> exact hbroker
  rw [settle_eq]
  cases run.ending <;> exact hcommit _

theorem extends_groupLoop (cfg : Config) (outcomes : ℕ → Outcome)
    (groups : List (TopicPartition × List ModelTransportMessage)) (processed : ℕ) (s : Runtime) :
    s.broker.Extends (s.groupLoop cfg outcomes groups processed).2.1.broker := by
  induction groups generalizing processed s with
  | nil => exact s.broker.grows_refl.extends
  | cons entry rest ih =>
    obtain ⟨front, back, -, hspec⟩ := dispatchGroup_spec cfg outcomes
      (sortedAsc (·.offset) entry.2) processed none s
    have hgroup := hspec.grows.extends
    unfold Runtime.groupLoop
    dsimp only
    generalize s.dispatchGroup cfg outcomes (sortedAsc (·.offset) entry.2) processed none = run
      at hgroup
    have hsettled := hgroup.trans (extends_settle run)
    cases run.ending with
    | raised e => exact hgroup
    | finished => exact hsettled.trans (ih run.processed _)
    | redeliver m => exact hsettled.trans (ih run.processed _)

theorem extends_run (s : System) (steps : List Step) :
    s.runtime.broker.Extends (s.run steps).runtime.broker := by
  induction steps generalizing s with
  | nil => exact s.runtime.broker.grows_refl.extends
  | cons step rest ih =>
    refine InMemoryBroker.Extends.trans ?_ (ih (s.step step))
    have hsame := s.runtime.broker.grows_refl.extends
    cases step with
    | send send => exact (s.runtime.broker.appendAll_spec [send]).1.extends
    | start => exact hsame
    | close => exact hsame
    | restart config topics chaosDuplicate => exact hsame
    | runOnce outcomes =>
      show InMemoryBroker.Extends _ (s.runtime.runOnce s.config outcomes).2.1.broker
      unfold Runtime.runOnce
      cases s.runtime.transport.poll s.runtime.broker s.config.maxMessages with
      | error e => exact hsame
      | ok polled =>
        exact extends_groupLoop s.config outcomes _ 0 { s.runtime with transport := polled.2 }

variable {s : System}

theorem placed_run (h : s.runtime.broker.Placed) (steps : List Step) :
    (s.run steps).runtime.broker.Placed :=
  (extends_run s steps).placed h

/-- In every run, also one with restarts and cycles that raise, logs are only appended to, a record
has the place that it is at, and no committed offset goes back. -/
theorem run_appendOnly (numPartitions : ℕ+) (keyDigest : Bytes → ℕ) (group : String)
    (config : Config) (topics : List String) (chaosDuplicate : Bool) (before after : List Step) :
    let first := System.initial numPartitions keyDigest group config topics chaosDuplicate
    (first.run before).runtime.broker.Placed ∧
      (first.run before).runtime.broker.Extends (first.run (before ++ after)).runtime.broker := by
  intro first
  have hinitial : first.runtime.broker.Placed := fun _ _ _ h => (nomatch h)
  have hrun : first.run (before ++ after) = (first.run before).run after := List.foldl_append
  rw [hrun]
  exact ⟨(extends_run first before).placed hinitial, extends_run _ after⟩

theorem topics_run {steps : List Step} (hsteps : ∀ step ∈ steps, step.isRestart = false) :
    (s.run steps).runtime.transport.topics = s.runtime.transport.topics := by
  induction steps generalizing s with
  | nil => rfl
  | cons step rest ih =>
    rw [List.forall_mem_cons] at hsteps
    have hstep : (s.step step).runtime.transport.topics = s.runtime.transport.topics := by
      cases step with
      | send send => rfl
      | start => rfl
      | close => rfl
      | restart config topics chaosDuplicate => exact nomatch hsteps.1
      | runOnce outcomes => exact (continues_runOnce s.config s.runtime outcomes).topics
    exact (ih hsteps.2).trans hstep

theorem everyCycle_append {P : System → (ℕ → Outcome) → Prop}
    {steps steps' : List Step} : EveryCycle P s (steps ++ steps') ↔
      EveryCycle P s steps ∧ EveryCycle P (s.run steps) steps' := by
  induction steps generalizing s with
  | nil => exact (and_iff_right trivial).symm
  | cons step rest ih =>
    show _ ∧ EveryCycle P (s.step step) (rest ++ steps') ↔ (_ ∧ _) ∧ _
    rw [ih, and_assoc]
    rfl

structure Bounded (cfg : Config) (events : List Event) : Prop where
  dispatches : (events.countP Event.isDispatch : ℤ) ≤ cfg.maxRetries + 1
  successes : events.countP Event.isSuccess ≤ 1
  deadLetters : events.countP Event.isDeadLetter ≤ 1

theorem Settled.bounded {cfg : Config} {events : List Event} (h : Settled cfg events) :
    Bounded cfg events where
  dispatches := h.dispatches
  successes := by
    refine le_trans (List.countP_mono_left fun e _ he => ?_) h.terminals
    simp [Event.isTerminal, he]
  deadLetters := by
    refine le_trans (List.countP_mono_left fun e _ he => ?_) h.terminals
    simp [Event.isTerminal, he]

theorem tracks_restart {config : Config} (hretries : 0 ≤ config.maxRetries) (topics : List String)
    (h : s.runtime.broker.Placed) (orderly : Prop) :
    Tracks config orderly (s.step (.restart config topics false)).runtime.position
      (s.step (.restart config topics false)) [] where
  config := rfl
  chaosFree := ⟨h, rfl, rfl⟩
  ledger :=
    { pending := fun _ _ _ => ⟨fun _ he => (nomatch he), rfl, hretries⟩
      settled := fun _ _ _ => ⟨by simpa [eventsAt] using by omega, by simp [eventsAt]⟩
      terminalized := fun _ _ _ hle hlt => absurd hlt (not_lt.mpr hle)
      ordered := fun _ before e after hsplit => by simp at hsplit }

/-- The dispatches of one runtime over a transport without chaos mode are bounded. Where every
cycle returns, they come after the smaller offsets of the partition have been terminalized, and
where nothing is appended `drain` returns within its bound on cycles. -/
theorem poison_bounded (numPartitions : ℕ+) (keyDigest : Bytes → ℕ) (group : String)
    (config₀ : Config) (topics₀ : List String) (chaosDuplicate : Bool) (before : List Step)
    (config : Config) (topics : List String) (steps : List Step)
    (hretries : 0 ≤ config.maxRetries) (hsteps : ∀ step ∈ steps, step.isRestart = false) :
    let first := System.initial numPartitions keyDigest group config₀ topics₀ chaosDuplicate
    let s := (first.run before).step (.restart config topics false)
    let now := (s.run steps).step .start
    let cycles := now.undeliveredCount * (config.maxRetries + 1).toNat + 1
    (∀ place o, Bounded config (eventsAt (s.events steps) place o)) ∧
      (EveryCycle (fun s outcomes => ∃ n, s.cycle outcomes = .ok n) first
          (before ++ .restart config topics false :: steps) →
        ∀ earlier m disposition later,
          s.events steps = earlier ++ .dispatched m disposition :: later → ∀ o < m.offset,
            Terminalized earlier m.place o ∨ ∃ m', (s.runtime.broker.logs m.place)[o]? = some m' ∧
              Handled s.runtime.broker s.outputs m') ∧
      ∀ outcomes, 1 ≤ config.maxMessages → DeadLettersArrive config topics outcomes →
        EveryCycle System.Quiet now (System.drainSteps outcomes 0 cycles) →
          ∃ total, ∀ maxCycles : ℤ, (cycles : ℤ) ≤ maxCycles →
            ((s.run steps).drain outcomes maxCycles).1 = .ok total := by
  intro first s now cycles
  have hinitial : first.runtime.broker.Placed := fun _ _ _ h => (nomatch h)
  have hplaced : (first.run before).runtime.broker.Placed := placed_run hinitial before
  have htracks : Tracks config False s.runtime.position (s.run steps) (s.events steps) :=
    (tracks_restart hretries topics hplaced False).run hsteps nofun
  refine ⟨fun place o => (htracks.ledger.all_settled place o).bounded, fun hcycles => ?_,
    fun outcomes hmax harrive hquiet => ?_⟩
  · obtain ⟨hbefore, -, hcycles⟩ := everyCycle_append.mp hcycles
    have hsound := sound_run_initial leavesCommitted_of_returns hbefore
    have hordered := ((tracks_restart hretries topics hplaced True).run hsteps
      fun _ => hcycles).ledger.ordered trivial
    intro earlier m disposition later hsplit o ho
    by_cases hbase : s.runtime.position m.place ≤ o
    · exact Or.inl (hordered earlier _ later hsplit o ho hbase)
    · -- an offset before the first position is committed
      have hcommitted : (o : ℤ) ≤ (first.run before).runtime.committed m.place := by
        have hposition : s.runtime.position m.place
            = ((first.run before).runtime.committed m.place + 1).toNat := rfl
        omega
      exact Or.inr (hsound.safe.handled m.place o hcommitted)
  · have htopics : (s.run steps).runtime.transport.topics = topics := topics_run hsteps
    rw [← htopics] at harrive
    exact drain_returns htracks hmax harrive hquiet

def failing : ℕ → Outcome := fun _ => { outbound := none }

/-- The message is dispatched twice and dead-lettered, and the third cycle is empty. -/
theorem poison_bounded_once :
    let s := ((System.initial 1 (fun _ => 0) "workers" {} ["orders"] false).run
      [.send { topic := "orders", key := none, value := [0] }]).step
        (.restart { maxRetries := 1 } ["orders"] false)
    (∀ place o, Bounded { maxRetries := 1 } (eventsAt (s.events [.start]) place o)) ∧
      ∃ total, ∀ maxCycles : ℤ, 3 ≤ maxCycles →
        ((s.run [.start]).drain (fun _ => failing) maxCycles).1 = .ok total := by
  intro s
  obtain ⟨hbounded, -, hdrain⟩ := poison_bounded 1 (fun _ => 0) "workers" {} ["orders"] false
    [.send { topic := "orders", key := none, value := [0] }] { maxRetries := 1 } ["orders"]
    [.start] (by decide) (by decide)
  refine ⟨hbounded, ?_⟩
  have hcycles : ((s.run [.start]).step .start).undeliveredCount * ((1 : ℤ) + 1).toNat + 1 = 3 := by
    decide +kernel
  have hreturns := hdrain (fun _ => failing) (by decide)
    ⟨fun topic _ => ⟨topic ++ ".dlq", rfl⟩, fun _ _ => rfl⟩
  rw [hcycles] at hreturns
  apply hreturns
  refine ⟨fun _ heq => ?_, fun _ heq => ?_, fun _ heq => ?_, trivial⟩ <;>
    obtain rfl := Step.runOnce.inj heq
  · show ∀ place ∈ _, _ = _
    decide +kernel
  · show ∀ place ∈ _, _ = _
    decide +kernel
  · show ∀ place ∈ _, _ = _
    decide +kernel

def poisonMessage : ModelTransportMessage where
  topic := "orders"
  partition := 0
  offset := 0
  key := none
  value := [0]
  headers := []

/-- A consumer whose only message has failed as often as that. -/
def poisoned (positions : TopicPartition → Option ℕ) (k : ℕ) : System where
  config := { maxRetries := 1000 }
  runtime :=
    { broker :=
        { numPartitions := 1
          keyDigest := fun _ => 0
          logs := Function.update (fun _ => []) ("orders", 0) [poisonMessage] }
      transport :=
        { group := "workers"
          topics := ["orders"]
          chaosDuplicate := false
          started := true
          positions }
      attempts := Function.update (fun _ => 0) (("orders", 0), 0) k }

theorem poll_poisoned {positions : TopicPartition → Option ℕ} {k : ℕ}
    (hpositions : (positions ("orders", 0)).getD 0 = 0) :
    (poisoned positions k).runtime.transport.poll (poisoned positions k).runtime.broker 64
      = .ok ([poisonMessage], { (poisoned positions k).runtime.transport with
          positions := Function.update positions ("orders", 0) (some 1) }) := by
  have hplaces : (poisoned positions k).runtime.transport.places
      (poisoned positions k).runtime.broker = [("orders", 0)] := rfl
  have hposition : (poisoned positions k).runtime.transport.position
      (poisoned positions k).runtime.broker ("orders", 0) = 0 := hpositions
  unfold InMemoryTransport.poll
  rw [hplaces]
  unfold poisoned at hposition ⊢
  simp [InMemoryTransport.pollPartition, hposition]

theorem cycle_poisoned {positions : TopicPartition → Option ℕ} {k : ℕ}
    (hpositions : (positions ("orders", 0)).getD 0 = 0) (hk : k < 1000) :
    (poisoned positions k).runtime.runOnce (poisoned positions k).config failing
      = (.ok 1, (poisoned (Function.update positions ("orders", 0) (some 0)) (k + 1)).runtime,
          []) := by
  have hpoll := @poll_poisoned positions k hpositions
  have hretries : ¬ 1000 ≤ k := by omega
  unfold Runtime.runOnce
  rw [show (poisoned positions k).config.maxMessages = 64 from rfl, hpoll]
  show Runtime.groupLoop _ _ [(("orders", 0), [poisonMessage])] 0 _ = _
  unfold Runtime.groupLoop
  rw [show sortedAsc (·.offset) [poisonMessage] = [poisonMessage] from rfl]
  simp [Runtime.dispatchGroup, Runtime.dispatchOne, failing, Runtime.sendAll,
    InMemoryBroker.appendAll, Runtime.failed, poisoned, hretries, poisonMessage,
    ModelTransportMessage.place, Runtime.settle, Runtime.groupLoop, InMemoryTransport.nack]

/-- A message that always fails keeps the drain from ending, for a thousand cycles. -/
theorem drain_poisoned (maxCycles : ℤ) (cycles turn total k : ℕ)
    {positions : TopicPartition → Option ℕ} (hpositions : (positions ("orders", 0)).getD 0 = 0)
    (hk : k + cycles ≤ 1000) :
    EveryCycle System.Quiet (poisoned positions k)
        (System.drainSteps (fun _ => failing) turn cycles) ∧
      (System.drainLoop maxCycles (fun _ => failing) cycles turn total (poisoned positions k)).1
        = .error (.exceeded maxCycles) := by
  induction cycles generalizing turn total k positions with
  | zero => exact ⟨trivial, rfl⟩
  | succ cycles ih =>
    have hcycle := @cycle_poisoned positions k hpositions (by omega)
    have hstep : (poisoned positions k).step (.runOnce failing)
        = poisoned (Function.update positions ("orders", 0) (some 0)) (k + 1) := by
      unfold System.step
      dsimp only
      rw [hcycle]
      rfl
    obtain ⟨hquiet, hloop⟩ := @ih (turn + 1) (total + 1) (k + 1)
      (Function.update positions ("orders", 0) (some 0)) (by simp) (by omega)
    rw [drainSteps_succ]
    refine ⟨⟨fun outcomes heq => ?_, ?_⟩, ?_⟩
    · obtain rfl := Step.runOnce.inj heq
      intro place _
      rw [hstep]
      rfl
    · rw [hstep]
      exact hquiet
    · have hone : (poisoned positions k).cycle failing = .ok 1 := congrArg Prod.fst hcycle
      rw [System.drainLoop, hone, hstep]
      exact hloop

/-- A message that may be retried a thousand times fails in each of the thousand cycles of `drain`,
which raises an error before cycle `1 * (1000 + 1) + 1`. -/
theorem poisonMessage_exceeds :
    let s := (System.initial 1 (fun _ => 0) "workers" { maxRetries := 1000 } ["orders"] false).run
      [.send { topic := "orders", key := none, value := [0] }]
    (s.step .start).undeliveredCount = 1 ∧
      EveryCycle System.Quiet (s.step .start) (System.drainSteps (fun _ => failing) 0 1000) ∧
      (s.drain fun _ => failing).1 = .error (.exceeded 1000) := by
  intro s
  have hstart : s.step .start = poisoned (fun _ => none) 0 := by
    unfold poisoned
    rw [Function.update_eq_self]
    rfl
  obtain ⟨hquiet, hdrain⟩ := @drain_poisoned 1000 1000 0 0 0 (fun _ => none) rfl le_rfl
  refine ⟨by decide +kernel, ?_, ?_⟩
  · rw [hstart]
    exact hquiet
  · unfold System.drain
    rw [hstart]
    exact hdrain

end OmnibaseCore.Dispatch
