import OmnibaseCore.Dispatch.CycleTheorems

/-!
# What is committed has been handled

Between two cycles no fetch position is beyond the first offset that is not committed, so what the
next cycle commits is again a prefix of what has not been committed.

* `Step.sound`: a step whose cycle leaves no partition keeps that.
* `run_deliverable`: in every run whose cycles return, what is committed has been handled, and the
  rest can still be delivered.
-/

namespace OmnibaseCore.Dispatch

/-! ## What holds between two cycles -/

/-- What is committed has been handled, the rest can be fetched, and the dead-letter topics are
those of the configurations. -/
structure Sound (configs : List Config) (s : System) : Prop where
  safe : Safe s.runtime s.outputs
  behind : ∀ place, Behind s.runtime place
  config : s.config ∈ configs
  resolved : ∀ m topic, .deadLettered m topic ∈ s.outputs →
    ∃ config ∈ configs, config.dlqTopicResolver m.topic = .ok topic

theorem sound_initial (numPartitions : ℕ+) (keyDigest : Bytes → ℕ) (group : String)
    (config : Config) (topics : List String) (chaosDuplicate : Bool) {configs : List Config}
    (hconfig : config ∈ configs) :
    Sound configs (System.initial numPartitions keyDigest group config topics chaosDuplicate) where
  safe :=
    { placed := fun _ _ _ h => (nomatch h)
      neg_one_le := fun _ => le_rfl
      handled := fun _ o ho => by
        have hnone : (o : ℤ) ≤ -1 := ho
        omega
      pending := fun _ h => (nomatch h) }
  behind := fun _ => le_rfl
  config := hconfig
  resolved := fun _ _ h => (nomatch h)

section
variable {configs : List Config} {s : System}

theorem sound_restart (h : Sound configs s) {config : Config} (hconfig : config ∈ configs)
    (topics : List String) (chaosDuplicate : Bool) :
    Sound configs (s.step (.restart config topics chaosDuplicate)) where
  safe := ⟨h.safe.placed, h.safe.neg_one_le, h.safe.handled, fun _ h => (nomatch h)⟩
  behind := by
    intro place
    have hle := h.safe.neg_one_le place
    show (((s.runtime.committed place + 1).toNat : ℕ) : ℤ) ≤ s.runtime.committed place + 1
    omega
  config := hconfig
  resolved := h.resolved

theorem sound_send (h : Sound configs s) (send : Send) :
    Sound configs (s.step (.send send)) := by
  have hgrows : s.runtime.broker.Grows (s.step (.send send)).runtime.broker :=
    (s.runtime.broker.appendAll_spec [send]).1
  refine ⟨h.safe.grows hgrows rfl (List.Subset.refl _), fun place => ?_, h.config, h.resolved⟩
  exact (h.behind place).kept (kept_of_grows hgrows rfl place)

theorem sound_runOnce (h : Sound configs s) {outcomes : ℕ → Outcome}
    (hleft : ∀ entry ∈ s.runtime.left s.config outcomes, ∀ m ∈ entry.2,
      (m.offset : ℤ) ≤ s.runtime.committed m.place) :
    Sound configs (s.step (.runOnce outcomes)) := by
  obtain ⟨s₁, hpoll, hloop, -⟩ := runOnce_spec s.config outcomes h.safe h.behind
  refine ⟨hloop.safe, fun place => ?_, h.config, fun m topic hm => ?_⟩
  · by_cases hplace : place ∈ (s.runtime.left s.config outcomes).map Prod.fst
    · obtain ⟨entry, hentry, rfl⟩ := List.mem_map.mp hplace
      obtain ⟨start, hflight⟩ := hloop.inFlight entry hentry
      refine hflight.behind hloop.safe.placed fun m hm => ?_
      have hkept := (hloop.kept entry.1 hplace).committed
      rw [hkept, hpoll.committed, ← (hflight.record m hm).1]
      exact hleft entry hentry m hm
    · exact hloop.behind place hplace
  · rcases List.mem_append.mp hm with hm | hm
    · exact h.resolved m topic hm
    · exact ⟨s.config, h.config, hloop.resolved m topic hm⟩

end

/-! ## Runs -/

/-- The configurations of the runtimes that a run restarts with. -/
def restartConfigs (steps : List Step) : List Config :=
  steps.filterMap fun step =>
    match step with
    | .restart config _ _ => some config
    | _ => none

def EveryCycle (P : System → (ℕ → Outcome) → Prop) (s : System) : List Step → Prop
  | [] => True
  | step :: rest =>
    (∀ outcomes, step = .runOnce outcomes → P s outcomes) ∧ EveryCycle P (s.step step) rest

def LeavesCommitted (s : System) (outcomes : ℕ → Outcome) : Prop :=
  ∀ entry ∈ s.runtime.left s.config outcomes, ∀ m ∈ entry.2,
    (m.offset : ℤ) ≤ s.runtime.committed m.place

section
variable {configs : List Config} {s : System}

theorem Sound.step (h : Sound configs s) {step : Step}
    (hconfigs : ∀ config topics chaosDuplicate, step = .restart config topics chaosDuplicate →
      config ∈ configs)
    (hcycle : ∀ outcomes, step = .runOnce outcomes → LeavesCommitted s outcomes) :
    Sound configs (s.step step) := by
  cases step with
  | send send => exact sound_send h send
  | start => exact ⟨⟨h.safe.placed, h.safe.neg_one_le, h.safe.handled, h.safe.pending⟩,
      h.behind, h.config, h.resolved⟩
  | close => exact ⟨⟨h.safe.placed, h.safe.neg_one_le, h.safe.handled, h.safe.pending⟩,
      h.behind, h.config, h.resolved⟩
  | runOnce outcomes => exact sound_runOnce h (hcycle outcomes rfl)
  | restart config topics chaosDuplicate =>
    exact sound_restart h (hconfigs config topics chaosDuplicate rfl) topics chaosDuplicate

variable {P : System → (ℕ → Outcome) → Prop}

/-- A run whose cycles have a property by which what they leave is committed. -/
theorem Sound.run
    (hP : ∀ {s}, Sound configs s → ∀ {outcomes}, P s outcomes → LeavesCommitted s outcomes)
    (h : Sound configs s) {steps : List Step}
    (hconfigs : ∀ config ∈ restartConfigs steps, config ∈ configs)
    (hcycles : EveryCycle P s steps) : Sound configs (s.run steps) := by
  induction steps generalizing s with
  | nil => exact h
  | cons step rest ih =>
    obtain ⟨hcycle, hcycles⟩ := hcycles
    refine ih (h.step ?_ fun outcomes hstep => hP h (hcycle outcomes hstep)) ?_ hcycles
    · intro config topics chaosDuplicate hstep
      refine hconfigs config (List.mem_filterMap.mpr ⟨step, List.mem_cons_self, ?_⟩)
      rw [hstep]
    · intro config hconfig
      refine hconfigs config ?_
      obtain ⟨step', hstep', heq⟩ := List.mem_filterMap.mp hconfig
      exact List.mem_filterMap.mpr ⟨step', List.mem_cons_of_mem _ hstep', heq⟩

theorem leavesCommitted_of_returns (h : Sound configs s) {outcomes : ℕ → Outcome}
    (hreturns : ∃ n, s.cycle outcomes = .ok n) : LeavesCommitted s outcomes := by
  obtain ⟨-, -, -, hleft⟩ := runOnce_spec s.config outcomes h.safe h.behind
  unfold LeavesCommitted
  rw [hleft hreturns]
  exact fun _ h => (nomatch h)

theorem sound_run_initial
    {numPartitions : ℕ+} {keyDigest : Bytes → ℕ} {group : String} {config : Config}
    {topics : List String} {chaosDuplicate : Bool} {steps : List Step}
    (hP : ∀ {s}, Sound (config :: restartConfigs steps) s →
      ∀ {outcomes}, P s outcomes → LeavesCommitted s outcomes)
    (hcycles : EveryCycle P
      (System.initial numPartitions keyDigest group config topics chaosDuplicate) steps) :
    Sound (config :: restartConfigs steps)
      ((System.initial numPartitions keyDigest group config topics chaosDuplicate).run steps) :=
  (sound_initial numPartitions keyDigest group config topics chaosDuplicate
    List.mem_cons_self).run hP (fun _ h => List.mem_cons_of_mem config h) hcycles

theorem Sound.position_le (h : Sound configs s) {place : TopicPartition} {o : ℕ}
    (ho : s.runtime.committed place < o) : s.runtime.position place ≤ o := by
  have hbehind := h.behind place
  unfold Behind at hbehind
  omega

end

/-- In a run whose cycles return, every committed offset has a record that has been dispatched with
its events sent, or whose bytes are in its dead-letter topic, and the rest can still be fetched. -/
theorem run_deliverable (numPartitions : ℕ+) (keyDigest : Bytes → ℕ) (group : String)
    (config : Config) (topics : List String) (chaosDuplicate : Bool) (steps : List Step)
    (hcycles : EveryCycle (fun s outcomes => ∃ n, s.cycle outcomes = .ok n)
      (System.initial numPartitions keyDigest group config topics chaosDuplicate) steps) :
    let s := (System.initial numPartitions keyDigest group config topics chaosDuplicate).run steps
    (∀ place (o : ℕ), (o : ℤ) ≤ s.runtime.committed place →
        ∃ m, (s.runtime.broker.logs place)[o]? = some m ∧
          Handled s.runtime.broker s.outputs m) ∧
      (∀ m topic, .deadLettered m topic ∈ s.outputs →
        ∃ cfg ∈ config :: restartConfigs steps, cfg.dlqTopicResolver m.topic = .ok topic) ∧
      ∀ place (o : ℕ), s.runtime.committed place < o → s.runtime.position place ≤ o := by
  have hsound := sound_run_initial leavesCommitted_of_returns hcycles
  exact ⟨hsound.safe.handled, hsound.resolved, fun _ _ ho => hsound.position_le ho⟩

/-- Two messages are sent, the first is handled, the second fails and is handled after a restart. -/
theorem run_deliverable_restart :
    let send : Send := { topic := "orders", key := none, value := [1] }
    let event : Send := { topic := "invoices", key := none, value := [2] }
    let steps : List Step := [.send send, .send send, .start,
      .runOnce fun i => if i = 0 then { outbound := some [event] } else { outbound := none },
      .restart {} ["orders"] true, .start, .runOnce fun _ => { outbound := some [event] }]
    let s := (System.initial 1 (fun _ => 0) "billing" {} ["orders"] true).run steps
    s.runtime.committed ("orders", 0) = 1 ∧
      ∀ place (o : ℕ), (o : ℤ) ≤ s.runtime.committed place →
        ∃ m, (s.runtime.broker.logs place)[o]? = some m ∧ Handled s.runtime.broker s.outputs m := by
  intro send event steps
  refine ⟨by decide +kernel, ?_⟩
  refine (run_deliverable 1 (fun _ => 0) "billing" {} ["orders"] true steps ?_).1
  refine ⟨fun _ h => (nomatch h), fun _ h => (nomatch h), fun _ h => (nomatch h), ?_,
    fun _ h => (nomatch h), fun _ h => (nomatch h), ?_, trivial⟩
  · intro outcomes h
    obtain rfl := Step.runOnce.inj h
    exact ⟨2, by decide +kernel⟩
  · intro outcomes h
    obtain rfl := Step.runOnce.inj h
    exact ⟨1, by decide +kernel⟩

/-!
## Cycles that raise

A poll moves the fetch positions of all partitions. A cycle that raises, because the send to a
dead-letter topic does, neither commits nor nacks the partition it is at and those after it.

* `strandsNothing_iff`: such a cycle strands nothing exactly if what was polled of these partitions
  is committed already, that is, if all of it are duplicates.
* `failedDeadLetter_strands`: a message is lost, and a later commit covers it.
-/

open OmnibaseCore.Dispatch.Runtime

/-! ## What a cycle leaves unchanged -/

/-- The consumer has the same partitions, records have been added to the logs, and no commit has
been taken back. -/
structure Continues (s s' : Runtime) : Prop where
  started : s'.transport.started = s.transport.started
  topics : s'.transport.topics = s.transport.topics
  numPartitions : s'.broker.numPartitions = s.broker.numPartitions
  logs : ∀ place, s.broker.logs place <+: s'.broker.logs place
  committed_le : ∀ place, s.committed place ≤ s'.committed place

section
variable {s s' s'' : Runtime}

theorem continues_refl (s : Runtime) : Continues s s :=
  ⟨rfl, rfl, rfl, fun _ => List.prefix_rfl, fun _ => le_rfl⟩

theorem Continues.trans (h : Continues s s') (h' : Continues s' s'') : Continues s s'' where
  started := h'.started.trans h.started
  topics := h'.topics.trans h.topics
  numPartitions := h'.numPartitions.trans h.numPartitions
  logs := fun place => (h.logs place).trans (h'.logs place)
  committed_le := fun place => (h.committed_le place).trans (h'.committed_le place)

theorem continues_of_grows (hgrows : s.broker.Grows s'.broker)
    (htransport : s'.transport = s.transport) : Continues s s' :=
  ⟨by rw [htransport], by rw [htransport], hgrows.numPartitions, hgrows.logs,
    fun _ => by rw [committed_of_grows hgrows htransport]⟩

theorem continues_afterCommit (s : Runtime) (m : ModelTransportMessage) :
    Continues s (s.afterCommit m) := by
  have hnumPartitions : (s.broker.commitOffset s.transport.group m.place m.offset).numPartitions
      = s.broker.numPartitions := by
    unfold InMemoryBroker.commitOffset
    split_ifs <;> rfl
  obtain ⟨hlogs, -, -, hcommitted, -⟩ := afterCommit_spec s m
  have hmono : ∀ place, s.committed place ≤ (s.afterCommit m).committed place := by
    intro place
    rw [hcommitted]
    split_ifs
    · exact le_max_left ..
    · exact le_rfl
  refine ⟨?_, ?_, ?_, fun place => by rw [hlogs], hmono⟩
  · unfold Runtime.afterCommit InMemoryTransport.commit
    split_ifs <;> rfl
  · unfold Runtime.afterCommit InMemoryTransport.commit
    split_ifs <;> rfl
  · refine Eq.trans ?_ hnumPartitions
    unfold Runtime.afterCommit InMemoryTransport.commit
    split_ifs <;> rfl

theorem continues_settle (run : GroupRun) : Continues run.state (settle run) := by
  have hcommit : Continues run.state (run.state.commitLast run.lastCommittable) := by
    cases run.lastCommittable with
    | none => exact continues_refl _
    | some m => exact continues_afterCommit _ m
  rw [settle_eq]
  cases run.ending with
  | finished => exact hcommit
  | raised e => exact hcommit
  | redeliver m =>
    exact ⟨hcommit.started, hcommit.topics, hcommit.numPartitions, hcommit.logs,
      hcommit.committed_le⟩

theorem continues_groupLoop (cfg : Config) (outcomes : ℕ → Outcome)
    (groups : List (TopicPartition × List ModelTransportMessage)) (processed : ℕ) (s : Runtime) :
    Continues s (s.groupLoop cfg outcomes groups processed).2.1 := by
  induction groups generalizing processed s with
  | nil => exact continues_refl s
  | cons entry rest ih =>
    obtain ⟨front, back, -, hspec⟩ := dispatchGroup_spec cfg outcomes
      (sortedAsc (·.offset) entry.2) processed none s
    have hgroup := continues_of_grows hspec.grows hspec.transport
    have hloop := (hgroup.trans (continues_settle _)).trans (ih (s.dispatchGroup cfg outcomes
      (sortedAsc (·.offset) entry.2) processed none).processed _)
    unfold Runtime.groupLoop
    dsimp only
    cases hending : (s.dispatchGroup cfg outcomes (sortedAsc (·.offset) entry.2) processed
      none).ending with
    | raised e => exact hgroup
    | finished => exact hloop
    | redeliver m => exact hloop

theorem continues_runOnce (cfg : Config) (s : Runtime) (outcomes : ℕ → Outcome) :
    Continues s (s.runOnce cfg outcomes).2.1 := by
  unfold Runtime.runOnce
  cases hpoll : s.transport.poll s.broker cfg.maxMessages with
  | error e => exact continues_refl s
  | ok polled =>
    obtain ⟨batch, t'⟩ := polled
    have hsame := (poll_fetched hpoll).same
    have hpolled : Continues s { s with transport := t' } := by
      refine ⟨?_, ?_, rfl, fun _ => List.prefix_rfl, fun place => ?_⟩
      · show t'.started = _
        rw [hsame]
      · show t'.topics = _
        rw [hsame]
      · unfold Runtime.committed
        rw [show t'.group = s.transport.group by rw [hsame]]
    exact hpolled.trans (continues_groupLoop cfg outcomes (groups batch) 0 _)

end

/-! ## What is stranded -/

/-- If the cycle raises, every message that it polled is committed, or has been sent to a
dead-letter topic by it, or is delivered by polls that follow. -/
def StrandsNothing (s : System) (outcomes : ℕ → Outcome) : Prop :=
  ∀ e, s.cycle outcomes = .error e → ∀ m ∈ s.runtime.batch s.config,
    let after := (s.step (.runOnce outcomes)).runtime
    (m.offset : ℤ) ≤ after.committed m.place ∨
      (∃ topic, .deadLettered m topic ∈ (s.runtime.runOnce s.config outcomes).2.2) ∨
      Delivers after.broker s.config.maxMessages m after.transport

section
variable {configs : List Config} {s : System} {outcomes : ℕ → Outcome}
  {m : ModelTransportMessage}

theorem batch_assigned (h : Sound configs s) (hm : m ∈ s.runtime.batch s.config) :
    s.runtime.transport.started = true ∧ 1 ≤ s.config.maxMessages ∧
      ((m.offset : ℤ) ≤ s.runtime.committed m.place ∨
        m.place ∈ s.runtime.transport.places s.runtime.broker) := by
  unfold Runtime.batch at hm
  cases hpoll : s.runtime.transport.poll s.runtime.broker s.config.maxMessages with
  | error e => rw [hpoll] at hm; cases hm
  | ok polled =>
    rw [hpoll] at hm
    obtain ⟨hstarted, hmax, -⟩ := poll_eq_ok hpoll
    refine ⟨hstarted, hmax, ?_⟩
    exact (poll_assigned h.safe.placed hpoll hm).imp_left fun hpending =>
      (h.safe.pending m hpending).2

theorem strandsNothing_of_leavesCommitted (h : Sound configs s)
    (hleaves : LeavesCommitted s outcomes) : StrandsNothing s outcomes := by
  intro e _ m hm after
  obtain ⟨hstarted, hmax, hassigned⟩ := batch_assigned h hm
  obtain ⟨s₁, hpoll, hloop, -⟩ := runOnce_spec s.config outcomes h.safe h.behind
  have hafter : Sound configs (s.step (.runOnce outcomes)) := sound_runOnce h hleaves
  have hcontinues := continues_runOnce s.config s.runtime outcomes
  by_cases hcommitted : (m.offset : ℤ) ≤ after.committed m.place
  · exact Or.inl hcommitted
  · refine Or.inr (Or.inr ?_)
    have hplaces : after.transport.places after.broker
        = s.runtime.transport.places s.runtime.broker := by
      unfold InMemoryTransport.places
      rw [show after.transport.topics = _ from hcontinues.topics,
        show after.broker.numPartitions = _ from hcontinues.numPartitions]
    obtain ⟨rest, hlogs⟩ := hcontinues.logs m.place
    have hrecord := hpoll.record m hm
    refine (delivers_iff hafter.safe.placed ?_ ?_ ?_ hmax).mpr
      (Or.inr (hafter.position_le (not_le.mp hcommitted)))
    · show ((s.runtime.runOnce s.config outcomes).2.1.broker.logs m.place)[m.offset]? = some m
      rw [← hlogs, List.getElem?_append_left (List.getElem?_eq_some_iff.mp hrecord).1]
      exact hrecord
    · rw [hplaces]
      exact hassigned.resolve_left fun hold =>
        hcommitted (hold.trans (hcontinues.committed_le m.place))
    · exact hcontinues.started.trans hstarted

/-- An uncommitted message of a partition that is left is beyond the fetch position. -/
theorem leavesCommitted_of_strandsNothing (h : Sound configs s)
    (hstrands : StrandsNothing s outcomes) : LeavesCommitted s outcomes := by
  obtain ⟨s₁, hpoll, hloop, hreturns⟩ := runOnce_spec s.config outcomes h.safe h.behind
  intro entry hentry m hm
  obtain ⟨first, rest, hleft⟩ : ∃ first rest, s.runtime.left s.config outcomes = first :: rest :=
    List.exists_cons_of_ne_nil (List.ne_nil_of_mem hentry)
  obtain ⟨e, hraises⟩ : ∃ e, s.cycle outcomes = .error e := by
    cases hcycle : s.cycle outcomes with
    | error e => exact ⟨e, rfl⟩
    | ok n =>
      rw [hreturns ⟨n, hcycle⟩] at hleft
      cases hleft
  obtain ⟨front, back, hsplit, hback, hdead⟩ := hloop.deadLettered first rest hleft
  have hcommitted : ∀ place ∈ (s.runtime.left s.config outcomes).map Prod.fst,
      (s.runtime.runOnce s.config outcomes).2.1.committed place = s.runtime.committed place := by
    intro place hplace
    rw [(hloop.kept place hplace).committed, hpoll.committed]
  -- a message that is left has not been handled, and lies before the fetch position
  have hstranded : ∀ entry ∈ s.runtime.left s.config outcomes, ∀ r ∈ entry.2,
      r ∉ front → (r.offset : ℤ) ≤ s.runtime.committed r.place := by
    intro entry hentry r hr hfront
    obtain ⟨start, hflight⟩ := hloop.inFlight entry hentry
    have hplace := (hflight.record r hr).1
    have hkey : r.place ∈ (s.runtime.left s.config outcomes).map Prod.fst := by
      rw [hplace]
      exact List.mem_map_of_mem hentry
    have hbatch : r ∈ s.runtime.batch s.config := by
      rw [(groups_spec _).2.1 entry (hloop.suffix.subset hentry)] at hr
      exact List.mem_of_mem_filter hr
    rw [← hcommitted _ hkey]
    rcases hstrands e hraises r hbatch with hold | ⟨topic, hsent⟩ | hdelivers
    · exact hold
    · exact absurd hkey ((hdead r topic hsent).resolve_right hfront)
    · rcases hdelivers.position_le hloop.safe.placed with hpending | hle
      · exact (hloop.safe.pending r hpending).2
      · have hsource := hflight.source r hr
        rw [← hplace] at hsource
        exact hsource.resolve_right fun hfetched => absurd hle (not_le.mpr hfetched.2)
  by_cases hfront : m ∈ front
  · -- the message at which the cycle raises does not have a smaller offset
    obtain ⟨r, hr⟩ := List.exists_mem_of_ne_nil back hback
    have hfirst : first ∈ s.runtime.left s.config outcomes := by
      rw [hleft]
      exact List.mem_cons_self
    obtain ⟨start, hflight⟩ := hloop.inFlight first hfirst
    have hperm := perm_sortedAsc (·.offset) first.2
    rw [hsplit] at hperm
    have hmfirst := hperm.mem_iff.mp (List.mem_append_left back hfront)
    have hrfirst := hperm.mem_iff.mp (List.mem_append_right front hr)
    have hplace := (hflight.record m hmfirst).1
    have hsorted := pairwise_sortedAsc (·.offset) first.2
    rw [hsplit, List.pairwise_append] at hsorted
    have hle : m.offset ≤ r.offset := hsorted.2.2 m hfront r hr
    refine not_lt.mp fun hnew => ?_
    have hrnew : s.runtime.committed r.place < r.offset := by
      rw [(hflight.record r hrfirst).1, ← hplace]
      omega
    have hrfront : r ∉ front := by
      intro hrfront
      have honce := hflight.once r hrfirst (by
        rw [hcommitted first.1 (List.mem_map_of_mem hfirst), ← (hflight.record r hrfirst).1]
        exact hrnew)
      rw [← hperm.count_eq, List.count_append] at honce
      have hinfront := List.count_pos_iff.mpr hrfront
      have hinback := List.count_pos_iff.mpr hr
      omega
    have hold := hstranded first hfirst r hrfirst hrfront
    omega
  · exact hstranded entry hentry m hm hfront

end

/-- In a run whose cycles leave nothing uncommitted when they raise, a cycle strands nothing exactly
if it does so as well, and what is committed has been handled. -/
theorem strandsNothing_iff (numPartitions : ℕ+) (keyDigest : Bytes → ℕ) (group : String)
    (config : Config) (topics : List String) (chaosDuplicate : Bool) (steps : List Step)
    (hcycles : EveryCycle LeavesCommitted
      (System.initial numPartitions keyDigest group config topics chaosDuplicate) steps) :
    let s := (System.initial numPartitions keyDigest group config topics chaosDuplicate).run steps
    (∀ outcomes, StrandsNothing s outcomes ↔ LeavesCommitted s outcomes) ∧
      ∀ place (o : ℕ), (o : ℤ) ≤ s.runtime.committed place →
        ∃ m, (s.runtime.broker.logs place)[o]? = some m ∧
          Handled s.runtime.broker s.outputs m := by
  have hsound := sound_run_initial (fun _ _ hleaves => hleaves) hcycles
  exact ⟨fun outcomes => ⟨leavesCommitted_of_strandsNothing hsound,
    strandsNothing_of_leavesCommitted hsound⟩, hsound.safe.handled⟩

/-- A duplicate of a committed message cannot be sent to its dead-letter topic. -/
theorem strandsNothing_iff_duplicate :
    let send : Send := { topic := "orders", key := none, value := [1] }
    let raises : ℕ → Outcome := fun _ => { outbound := none, deadLetterFails := some "unavailable" }
    let s := (System.initial 1 (fun _ => 0) "billing" { maxRetries := 0 } ["orders"] true).run
      [.send send, .start, .runOnce fun _ => {}, .runOnce raises]
    s.runtime.committed ("orders", 0) = 0 ∧
      ∀ outcomes, StrandsNothing s outcomes ↔ LeavesCommitted s outcomes := by
  intro send raises
  refine ⟨by decide +kernel, ?_⟩
  refine (strandsNothing_iff 1 (fun _ => 0) "billing" { maxRetries := 0 } ["orders"] true
    [.send send, .start, .runOnce fun _ => {}, .runOnce raises] ?_).1
  refine ⟨fun _ h => (nomatch h), fun _ h => (nomatch h), ?_, ?_, trivial⟩
  · intro outcomes h
    obtain rfl := Step.runOnce.inj h
    unfold LeavesCommitted
    decide +kernel
  · intro outcomes h
    obtain rfl := Step.runOnce.inj h
    unfold LeavesCommitted
    decide +kernel

/-- The fourth failure of a message is its last, but it cannot be sent to its dead-letter topic. It
is not delivered again, and the commit of the message after it covers it. -/
theorem failedDeadLetter_strands :
    let send : Send := { topic := "orders", key := none, value := [1] }
    let fails : Step := .runOnce fun _ => { outbound := none }
    let raises : ℕ → Outcome := fun _ => { outbound := none, deadLetterFails := some "unavailable" }
    let s := (System.initial 1 (fun _ => 0) "billing" {} ["orders"] false).run
      [.send send, .start, fails, fails, fails]
    let s' := s.run [.runOnce raises, .send send, .runOnce fun _ => {}]
    ¬ StrandsNothing s raises ∧ s'.runtime.committed ("orders", 0) = 1 ∧
      ∀ m, (s'.runtime.broker.logs ("orders", 0))[0]? = some m →
        ¬ Handled s'.runtime.broker s'.outputs m := by
  intro send fails raises s s'
  refine ⟨fun hstrands => ?_, by decide +kernel, fun m hm => ?_⟩
  · have hcycles : EveryCycle (fun s outcomes => ∃ n, s.cycle outcomes = .ok n)
        (System.initial 1 (fun _ => 0) "billing" {} ["orders"] false)
        [.send send, .start, fails, fails, fails] := by
      refine ⟨fun _ h => (nomatch h), fun _ h => (nomatch h), ?_, ?_, ?_, trivial⟩
      all_goals
        intro outcomes h
        obtain rfl := Step.runOnce.inj h
        exact ⟨1, by decide +kernel⟩
    have hleaves := leavesCommitted_of_strandsNothing
      (sound_run_initial leavesCommitted_of_returns hcycles) hstrands
    revert hleaves
    unfold LeavesCommitted
    decide +kernel
  · have houtputs : s'.outputs = [.committed ⟨"orders", 0, 1, none, [1], []⟩ []] := by
      decide +kernel
    have hfirst : (s'.runtime.broker.logs ("orders", 0))[0]?
        = some ⟨"orders", 0, 0, none, [1], []⟩ := by decide +kernel
    obtain rfl := Option.some.inj (hfirst.symm.trans hm)
    unfold Handled
    rw [houtputs]
    simp

end OmnibaseCore.Dispatch
