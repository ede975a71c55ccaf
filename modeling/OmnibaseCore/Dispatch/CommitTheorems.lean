import OmnibaseCore.Dispatch.PollTheorems

/-!
# The loop over a partition

The loop over a partition handles its messages in the order of their offsets and stops at the first
that is to be redelivered, so what is committed is a prefix of what has been fetched.
-/

namespace OmnibaseCore.Dispatch

open OmnibaseCore.Dispatch.Runtime

/-! ## The broker -/

/-- Records have been added, and nothing has been committed. -/
structure InMemoryBroker.Grows (b b' : InMemoryBroker) : Prop where
  numPartitions : b'.numPartitions = b.numPartitions
  committed : b'.committed = b.committed
  logs : ∀ place, b.logs place <+: b'.logs place
  placed : b.Placed → b'.Placed

/-- Nothing is taken out of a log, no committed offset goes back, and records stay placed. -/
structure InMemoryBroker.Extends (b b' : InMemoryBroker) : Prop where
  logs : ∀ place, b.logs place <+: b'.logs place
  committed : ∀ key, b.committed key ≤ b'.committed key
  placed : b.Placed → b'.Placed

/-- There is a record of the message. -/
def InMemoryBroker.Appended (b : InMemoryBroker) (send : Send) : Prop :=
  ∃ partition, ∃ m ∈ b.logs (send.topic, partition),
    m.key = send.key ∧ m.value = send.value ∧ m.headers = send.headers

section
variable {b b' b'' : InMemoryBroker} {send : Send} {place : TopicPartition}

theorem InMemoryBroker.grows_refl (b : InMemoryBroker) : b.Grows b :=
  ⟨rfl, rfl, fun _ => List.prefix_rfl, id⟩

theorem InMemoryBroker.Grows.trans (h : b.Grows b') (h' : b'.Grows b'') : b.Grows b'' where
  numPartitions := h'.numPartitions.trans h.numPartitions
  committed := h'.committed.trans h.committed
  logs := fun place => (h.logs place).trans (h'.logs place)
  placed := fun hplaced => h'.placed (h.placed hplaced)

theorem InMemoryBroker.Extends.trans (h : b.Extends b') (h' : b'.Extends b'') : b.Extends b'' where
  logs place := (h.logs place).trans (h'.logs place)
  committed key := (h.committed key).trans (h'.committed key)
  placed hb := h'.placed (h.placed hb)

theorem InMemoryBroker.Grows.extends (h : b.Grows b') : b.Extends b' :=
  ⟨h.logs, fun _ => h.committed ▸ le_rfl, h.placed⟩

theorem InMemoryBroker.Grows.record (h : b.Grows b') {o : ℕ} {m : ModelTransportMessage}
    (hm : (b.logs place)[o]? = some m) : (b'.logs place)[o]? = some m := by
  obtain ⟨rest, hrest⟩ := h.logs place
  rw [← hrest, List.getElem?_append_left (List.getElem?_eq_some_iff.mp hm).1]
  exact hm

theorem InMemoryBroker.Appended.grows (h : b.Appended send) (hgrows : b.Grows b') :
    b'.Appended send := by
  obtain ⟨partition, m, hm, hsame⟩ := h
  exact ⟨partition, m, (hgrows.logs _).subset hm, hsame⟩

/-- A send appends one message, and the log only grows. -/
theorem InMemoryBroker.append_spec (b : InMemoryBroker) (send : Send) :
    b.Grows (b.append send) ∧ (b.append send).Appended send := by
  obtain ⟨partition, roundRobin, hpartition⟩ : ∃ partition roundRobin,
      b.selectPartition send.topic send.key = (partition, { b with roundRobin }) := by
    unfold InMemoryBroker.selectPartition
    split_ifs
    · exact ⟨0, b.roundRobin, rfl⟩
    · cases send.key with
      | none => exact ⟨_, _, rfl⟩
      | some key => exact ⟨_, b.roundRobin, rfl⟩
  unfold InMemoryBroker.append
  rw [hpartition]
  dsimp only
  let message : ModelTransportMessage := ⟨send.topic, partition,
    (b.logs (send.topic, partition)).length, send.key, send.value, send.headers⟩
  refine ⟨⟨rfl, rfl, fun place => ?_, fun hplaced place o m hm => ?_⟩,
    partition, message, ?_, rfl, rfl, rfl⟩
  · dsimp only
    by_cases hplace : place = (send.topic, partition)
    · rw [hplace, Function.update_self]
      exact List.prefix_append ..
    · rw [Function.update_of_ne hplace]
  · dsimp only at hm
    by_cases hplace : place = (send.topic, partition)
    · rw [hplace, Function.update_self] at hm
      by_cases ho : o < (b.logs (send.topic, partition)).length
      · rw [List.getElem?_append_left ho, ← hplace] at hm
        exact hplaced place o m hm
      · rw [List.getElem?_append_right (not_lt.mp ho)] at hm
        rw [List.getElem?_singleton] at hm
        split_ifs at hm with hzero
        obtain rfl := Option.some.inj hm
        exact ⟨hplace.symm, by dsimp only; omega⟩
    · rw [Function.update_of_ne hplace] at hm
      exact hplaced place o m hm
  · dsimp only
    rw [Function.update_self]
    exact List.mem_append_right _ (List.mem_singleton.mpr rfl)

theorem InMemoryBroker.appendAll_spec (b : InMemoryBroker) (sends : List Send) :
    b.Grows (b.appendAll sends) ∧ ∀ send ∈ sends, (b.appendAll sends).Appended send := by
  induction sends generalizing b with
  | nil => exact ⟨b.grows_refl, fun _ h => nomatch h⟩
  | cons send rest ih =>
    obtain ⟨hgrows, happended⟩ := b.append_spec send
    obtain ⟨hgrows', happended'⟩ := ih (b.append send)
    refine ⟨hgrows.trans hgrows', fun send' hsend => ?_⟩
    rcases List.mem_cons.mp hsend with rfl | hsend
    · exact happended.grows hgrows'
    · exact happended' send' hsend

end

/-! ## One message -/

/-- A message has been dispatched with disposition `COMMIT`, and its events are in their logs, or
its original bytes are in a dead-letter topic. -/
def Handled (b : InMemoryBroker) (outputs : List Output) (m : ModelTransportMessage) : Prop :=
  (∃ outbound, .committed m outbound ∈ outputs ∧ ∀ send ∈ outbound, b.Appended send) ∨
    ∃ topic, .deadLettered m topic ∈ outputs ∧ b.Appended (deadLetter m topic)

theorem Handled.mono {b b' : InMemoryBroker} {outputs outputs' : List Output}
    {m : ModelTransportMessage} (h : Handled b outputs m) (hgrows : b.Grows b')
    (hsub : outputs ⊆ outputs') : Handled b' outputs' m := by
  rcases h with ⟨outbound, hmem, happended⟩ | ⟨topic, hmem, happended⟩
  · exact Or.inl ⟨outbound, hsub hmem, fun send hsend => (happended send hsend).grows hgrows⟩
  · exact Or.inr ⟨topic, hsub hmem, happended.grows hgrows⟩

section
variable {cfg : Config} {s s' : Runtime} {outcome : Outcome} {m : ModelTransportMessage}

theorem failed_spec : (s.failed cfg m).1 ≠ .commit ∧
    (s.failed cfg m).2.broker = s.broker ∧ (s.failed cfg m).2.transport = s.transport := by
  unfold Runtime.failed
  dsimp only
  split_ifs
  · exact ⟨fun h => (nomatch h), rfl, rfl⟩
  · exact ⟨fun h => (nomatch h), rfl, rfl⟩

/-- A message that may be committed has its outbound messages in the log. -/
theorem dispatchOne_spec (cfg : Config) (s : Runtime) (outcome : Outcome)
    (m : ModelTransportMessage) :
    s.broker.Grows (s.dispatchOne cfg outcome m).2.broker ∧
      (s.dispatchOne cfg outcome m).2.transport = s.transport ∧
      ((s.dispatchOne cfg outcome m).1 = .commit →
        ∀ send ∈ outcome.outbound.getD [],
          (s.dispatchOne cfg outcome m).2.broker.Appended send) := by
  have hexternal := (s.broker.appendAll_spec outcome.external).1
  have hfailed : ∀ s' : Runtime, s.broker.Grows s'.broker → s'.transport = s.transport →
      s.broker.Grows (s'.failed cfg m).2.broker ∧ (s'.failed cfg m).2.transport = s.transport ∧
        ((s'.failed cfg m).1 = .commit → ∀ send ∈ outcome.outbound.getD [],
          (s'.failed cfg m).2.broker.Appended send) := by
    intro s' hgrows htransport
    obtain ⟨hne, hbroker, htransport'⟩ := @failed_spec cfg s' m
    exact ⟨hbroker ▸ hgrows, htransport'.trans htransport, fun h => absurd h hne⟩
  unfold Runtime.dispatchOne
  cases houtbound : outcome.outbound with
  | none =>
    rw [houtbound] at hfailed
    exact hfailed (s.sendAll outcome.external) hexternal rfl
  | some outbound =>
    rw [houtbound] at hfailed
    dsimp only
    cases outcome.sendFails.filter fun i => i < outbound.length with
    | some i =>
      have hsent := ((s.sendAll outcome.external).broker.appendAll_spec (outbound.take i)).1
      exact hfailed ((s.sendAll outcome.external).sendAll (outbound.take i))
        (hexternal.trans hsent) rfl
    | none =>
      obtain ⟨hsent, happended⟩ := (s.sendAll outcome.external).broker.appendAll_spec outbound
      exact ⟨hexternal.trans hsent, rfl, fun _ => happended⟩

theorem sendToDlq_spec {topic : String} (h : s.sendToDlq cfg outcome m = .ok (topic, s')) :
    s.broker.Grows s'.broker ∧ s'.transport = s.transport ∧
      s'.broker.Appended (deadLetter m topic) ∧ cfg.dlqTopicResolver m.topic = .ok topic := by
  unfold Runtime.sendToDlq at h
  cases hresolved : cfg.dlqTopicResolver m.topic with
  | error e => rw [hresolved] at h; cases h
  | ok topic' =>
    rw [hresolved] at h
    dsimp only at h
    cases hfails : outcome.deadLetterFails with
    | some e => rw [hfails] at h; cases h
    | none =>
      rw [hfails] at h
      obtain ⟨rfl, rfl⟩ := Prod.mk.inj (Except.ok.inj h)
      obtain ⟨hgrows, happended⟩ := s.broker.appendAll_spec [deadLetter m topic']
      exact ⟨hgrows, rfl, happended _ (List.mem_singleton.mpr rfl), rfl⟩

end

/-! ## The messages of a partition -/

/-- What the loop over the messages of a partition leaves: those of `front` have been handled, the
last of them can be committed, and the loop ends at the first of `back`. -/
structure GroupSpec (cfg : Config) (s : Runtime) (lastCommittable : Option ModelTransportMessage)
    (front back : List ModelTransportMessage) (run : GroupRun) : Prop where
  grows : s.broker.Grows run.state.broker
  transport : run.state.transport = s.transport
  handled : ∀ m ∈ front, Handled run.state.broker run.outputs m
  last : run.lastCommittable = front.getLast?.or lastCommittable
  finished : run.ending = .finished → back = []
  redeliver : ∀ m, run.ending = .redeliver m → back.head? = some m
  raised : ∀ e, run.ending = .raised e → back ≠ []
  deadLettered : ∀ m topic, .deadLettered m topic ∈ run.outputs →
    m ∈ front ∧ cfg.dlqTopicResolver m.topic = .ok topic

theorem GroupSpec.cons {cfg : Config} {s s' : Runtime} {last : Option ModelTransportMessage}
    {m : ModelTransportMessage} {front back : List ModelTransportMessage} {run : GroupRun}
    {output : Output} (h : GroupSpec cfg s' (some m) front back run) (hgrows : s.broker.Grows s'.broker)
    (htransport : s'.transport = s.transport) (hhandled : Handled s'.broker [output] m)
    (houtput : ∀ m' topic, output = .deadLettered m' topic →
      m' = m ∧ cfg.dlqTopicResolver m.topic = .ok topic) :
    GroupSpec cfg s last (m :: front) back { run with outputs := output :: run.outputs } where
  grows := hgrows.trans h.grows
  transport := h.transport.trans htransport
  handled := by
    intro m' hm'
    rcases List.mem_cons.mp hm' with rfl | hm'
    · exact hhandled.mono h.grows (List.cons_subset_cons _ (List.nil_subset _))
    · exact (h.handled m' hm').mono (InMemoryBroker.grows_refl _) (List.subset_cons_self ..)
  last := by
    rw [h.last]
    cases front with
    | nil => rfl
    | cons m' rest =>
      rw [List.getLast?_cons_cons, List.getLast?_eq_some_getLast (List.cons_ne_nil m' rest)]
      rfl
  finished := h.finished
  redeliver := h.redeliver
  raised := h.raised
  deadLettered := by
    intro m' topic hmem
    rcases List.mem_cons.mp hmem with hmem | hmem
    · obtain ⟨rfl, htopic⟩ := houtput m' topic hmem.symm
      exact ⟨List.mem_cons_self, htopic⟩
    · obtain ⟨hfront, htopic⟩ := h.deadLettered m' topic hmem
      exact ⟨List.mem_cons_of_mem _ hfront, htopic⟩

/-- A group is dispatched up to a message that is retried or raises. -/
theorem dispatchGroup_spec (cfg : Config) (outcomes : ℕ → Outcome)
    (messages : List ModelTransportMessage) (processed : ℕ)
    (last : Option ModelTransportMessage) (s : Runtime) :
    ∃ front back, messages = front ++ back ∧
      GroupSpec cfg s last front back (s.dispatchGroup cfg outcomes messages processed last) := by
  induction messages generalizing processed last s with
  | nil =>
    refine ⟨[], [], rfl, ⟨s.broker.grows_refl, rfl, ?_, rfl, fun _ => rfl, ?_, ?_, ?_⟩⟩
    · exact fun _ h => nomatch h
    · exact fun _ h => nomatch h
    · exact fun _ h => nomatch h
    · exact fun _ _ h => nomatch h
  | cons m rest ih =>
    obtain ⟨hgrows, htransport, hcommit⟩ := dispatchOne_spec cfg s (outcomes processed) m
    unfold Runtime.dispatchGroup
    cases hdispatched : s.dispatchOne cfg (outcomes processed) m with
    | mk disposition s' =>
      rw [hdispatched] at hgrows htransport hcommit
      cases disposition with
      | commit =>
        obtain ⟨front, back, rfl, hspec⟩ := ih (processed + 1) (some m) s'
        refine ⟨m :: front, back, rfl, hspec.cons hgrows htransport ?_ ?_⟩
        · exact Or.inl ⟨_, List.mem_singleton.mpr rfl, hcommit rfl⟩
        · exact fun _ _ h => nomatch h
      | dlq =>
        dsimp only
        cases hsent : s'.sendToDlq cfg (outcomes processed) m with
        | error e =>
          refine ⟨[], m :: rest, rfl, ⟨hgrows, htransport, ?_, rfl, ?_, ?_, ?_, ?_⟩⟩
          · exact fun _ h => nomatch h
          · exact fun h => nomatch h
          · exact fun _ h => nomatch h
          · exact fun _ _ => List.cons_ne_nil _ _
          · exact fun _ _ h => nomatch h
        | ok sent =>
          obtain ⟨topic, s''⟩ := sent
          obtain ⟨hgrows', htransport', happended, htopic⟩ := sendToDlq_spec hsent
          obtain ⟨front, back, rfl, hspec⟩ := ih (processed + 1) (some m) s''
          refine ⟨m :: front, back, rfl, hspec.cons (hgrows.trans hgrows')
            (htransport'.trans htransport) ?_ ?_⟩
          · exact Or.inr ⟨topic, List.mem_singleton.mpr rfl, happended⟩
          · intro m' topic' h
            injection h with hm ht
            exact ⟨hm.symm, by rw [← ht]; exact htopic⟩
      | redeliver =>
        refine ⟨[], m :: rest, rfl, ⟨hgrows, htransport, ?_, rfl, ?_, ?_, ?_, ?_⟩⟩
        · exact fun _ h => nomatch h
        · exact fun h => nomatch h
        · intro m' h
          injection h with h
          rw [h]
          rfl
        · exact fun _ h => nomatch h
        · exact fun _ _ h => nomatch h

/-! ## Positions and commits -/

def Runtime.committed (s : Runtime) (place : TopicPartition) : ℤ :=
  s.broker.committedOffset s.transport.group place

def Runtime.position (s : Runtime) (place : TopicPartition) : ℕ :=
  s.transport.position s.broker place

structure Safe (s : Runtime) (outputs : List Output) : Prop where
  placed : s.broker.Placed
  neg_one_le : ∀ place, -1 ≤ s.committed place
  handled : ∀ place (o : ℕ), (o : ℤ) ≤ s.committed place →
    ∃ m, (s.broker.logs place)[o]? = some m ∧ Handled s.broker outputs m
  /-- duplicates are of committed messages -/
  pending : ∀ m ∈ s.transport.chaosPending,
    (s.broker.logs m.place)[m.offset]? = some m ∧ (m.offset : ℤ) ≤ s.committed m.place

/-- All that is not committed can still be fetched. -/
def Behind (s : Runtime) (place : TopicPartition) : Prop :=
  (s.position place : ℤ) ≤ s.committed place + 1

/-- The messages of a partition that a poll has delivered: records from `start` on, where `start`
was not beyond the first uncommitted offset, and duplicates of committed messages. -/
structure InFlight (s : Runtime) (place : TopicPartition) (start : ℕ)
    (messages : List ModelTransportMessage) : Prop where
  record : ∀ m ∈ messages, m.place = place ∧ (s.broker.logs place)[m.offset]? = some m
  start_le : (start : ℤ) ≤ s.committed place + 1
  start_le_position : start ≤ s.position place
  delivered : ∀ o, start ≤ o → o < s.position place →
    ∃ m ∈ messages, (s.broker.logs place)[o]? = some m
  source : ∀ m ∈ messages,
    (m.offset : ℤ) ≤ s.committed place ∨ start ≤ m.offset ∧ m.offset < s.position place
  once : ∀ m ∈ messages, s.committed place < m.offset → messages.count m ≤ 1

section
variable {s s' : Runtime} {outputs outputs' : List Output} {place : TopicPartition} {start : ℕ}
  {messages : List ModelTransportMessage}

theorem committed_of_grows (hgrows : s.broker.Grows s'.broker)
    (htransport : s'.transport = s.transport) : s'.committed = s.committed := by
  funext place
  unfold Runtime.committed InMemoryBroker.committedOffset
  rw [hgrows.committed, htransport]

theorem position_of_grows (hgrows : s.broker.Grows s'.broker)
    (htransport : s'.transport = s.transport) : s'.position = s.position := by
  funext place
  unfold Runtime.position InMemoryTransport.position InMemoryBroker.committedOffset
  rw [hgrows.committed, htransport]

theorem Safe.grows (h : Safe s outputs) (hgrows : s.broker.Grows s'.broker)
    (htransport : s'.transport = s.transport) (hsub : outputs ⊆ outputs') : Safe s' outputs' where
  placed := hgrows.placed h.placed
  neg_one_le := by
    rw [committed_of_grows hgrows htransport]
    exact h.neg_one_le
  handled := by
    intro place o ho
    rw [committed_of_grows hgrows htransport] at ho
    obtain ⟨m, hm, hhandled⟩ := h.handled place o ho
    exact ⟨m, hgrows.record hm, hhandled.mono hgrows hsub⟩
  pending := by
    intro m hm
    rw [htransport] at hm
    rw [committed_of_grows hgrows htransport]
    exact ⟨hgrows.record (h.pending m hm).1, (h.pending m hm).2⟩

/-- Only records have been added to the partition. -/
structure Kept (s s' : Runtime) (place : TopicPartition) : Prop where
  logs : s.broker.logs place <+: s'.broker.logs place
  committed : s'.committed place = s.committed place
  position : s'.position place = s.position place

theorem kept_of_grows (hgrows : s.broker.Grows s'.broker)
    (htransport : s'.transport = s.transport) (place : TopicPartition) : Kept s s' place where
  logs := hgrows.logs place
  committed := congrFun (committed_of_grows hgrows htransport) place
  position := congrFun (position_of_grows hgrows htransport) place

theorem Kept.record (h : Kept s s' place) {o : ℕ} {m : ModelTransportMessage}
    (hm : (s.broker.logs place)[o]? = some m) : (s'.broker.logs place)[o]? = some m := by
  obtain ⟨rest, hrest⟩ := h.logs
  rw [← hrest, List.getElem?_append_left (List.getElem?_eq_some_iff.mp hm).1]
  exact hm

theorem InFlight.kept (h : InFlight s place start messages) (hkept : Kept s s' place) :
    InFlight s' place start messages where
  record := fun m hm => ⟨(h.record m hm).1, hkept.record (h.record m hm).2⟩
  start_le := by
    rw [hkept.committed]
    exact h.start_le
  start_le_position := by
    rw [hkept.position]
    exact h.start_le_position
  delivered := by
    rw [hkept.position]
    intro o hle hlt
    obtain ⟨m, hm, ho⟩ := h.delivered o hle hlt
    exact ⟨m, hm, hkept.record ho⟩
  source := by
    rw [hkept.position, hkept.committed]
    exact h.source
  once := by
    rw [hkept.committed]
    exact h.once

theorem Behind.kept (h : Behind s place) (hkept : Kept s s' place) : Behind s' place := by
  unfold Behind
  rw [hkept.position, hkept.committed]
  exact h

/-- Nothing has been fetched beyond what is committed. -/
theorem InFlight.behind (hflight : InFlight s place start messages) (hplaced : s.broker.Placed)
    (hcommitted : ∀ m ∈ messages, (m.offset : ℤ) ≤ s.committed place) : Behind s place := by
  have hstart := hflight.start_le
  have hle := hflight.start_le_position
  unfold Behind
  by_cases hempty : s.position place = start
  · omega
  · obtain ⟨m, hm, hrecord⟩ :=
      hflight.delivered (s.position place - 1) (by omega) (by omega)
    have hoffset := (hplaced place _ m hrecord).2
    have hcovered := hcommitted m hm
    omega

/-! ## The end of a partition -/

def Runtime.afterCommit (s : Runtime) (m : ModelTransportMessage) : Runtime :=
  { s with
    transport := (s.transport.commit s.broker m).1
    broker := (s.transport.commit s.broker m).2 }

def Runtime.afterNack (s : Runtime) (m : ModelTransportMessage) : Runtime :=
  { s with transport := s.transport.nack s.broker m }

theorem committedOffset_commitOffset (b : InMemoryBroker) (group : String)
    (place other : TopicPartition) (o : ℕ) :
    (b.commitOffset group place o).committedOffset group other
      = if other = place then max (b.committedOffset group other) o
        else b.committedOffset group other := by
  unfold InMemoryBroker.commitOffset
  by_cases hlt : b.committedOffset group place < o
  · rw [if_pos hlt]
    unfold InMemoryBroker.committedOffset at hlt ⊢
    dsimp only
    by_cases hother : other = place
    · rw [if_pos hother, hother, Function.update_self, max_eq_right hlt.le]
    · have hne : (other.1, group, other.2) ≠ (place.1, group, place.2) := by
        intro h
        injection h with hfirst hrest
        injection hrest with _ hsecond
        exact hother (Prod.ext hfirst hsecond)
      rw [if_neg hother, Function.update_of_ne hne]
  · rw [if_neg hlt]
    by_cases hother : other = place
    · rw [if_pos hother, hother, max_eq_left (not_lt.mp hlt)]
    · rw [if_neg hother]

theorem logs_commitOffset (b : InMemoryBroker) (group : String) (place : TopicPartition) (o : ℕ) :
    (b.commitOffset group place o).logs = b.logs := by
  unfold InMemoryBroker.commitOffset
  split_ifs <;> rfl

theorem extends_commitOffset (b : InMemoryBroker) (group : String) (place : TopicPartition)
    (o : ℕ) : b.Extends (b.commitOffset group place o) := by
  have hlogs := logs_commitOffset b group place o
  refine ⟨fun _ => hlogs ▸ List.prefix_rfl, ?_, fun h => by rwa [InMemoryBroker.Placed, hlogs]⟩
  unfold InMemoryBroker.commitOffset
  split_ifs with hlt
  · exact le_update_self_iff.mpr hlt.le
  · exact fun _ => le_rfl

theorem afterCommit_spec (s : Runtime) (m : ModelTransportMessage) :
    (s.afterCommit m).broker.logs = s.broker.logs ∧
      (s.afterCommit m).transport.group = s.transport.group ∧
      (s.afterCommit m).transport.positions = s.transport.positions ∧
      (∀ place, (s.afterCommit m).committed place
        = if place = m.place then max (s.committed place) m.offset else s.committed place) ∧
      ∀ m' ∈ (s.afterCommit m).transport.chaosPending,
        m' ∈ s.transport.chaosPending ∨ (s.broker.logs m.place)[m.offset]? = some m' := by
  have hcommitted := committedOffset_commitOffset s.broker s.transport.group m.place
  have hlogs := logs_commitOffset s.broker s.transport.group m.place m.offset
  unfold Runtime.afterCommit Runtime.committed InMemoryTransport.commit
  dsimp only
  split_ifs with hchaos
  · refine ⟨hlogs, rfl, rfl, fun place => hcommitted place m.offset, fun m' hm' => ?_⟩
    refine (List.mem_append.mp hm').imp_right fun hm' => ?_
    unfold InMemoryBroker.recordAt at hm'
    rw [hlogs] at hm'
    exact Option.mem_toList.mp hm'
  · exact ⟨hlogs, rfl, rfl, fun place => hcommitted place m.offset, fun m' hm' => Or.inl hm'⟩

theorem position_afterCommit_le (hsafe : Safe s outputs) (m : ModelTransportMessage)
    (place : TopicPartition) : ((s.afterCommit m).position place : ℤ)
      ≤ max (s.position place : ℤ) ((s.afterCommit m).committed place + 1) := by
  obtain ⟨-, -, hpositions, hcommitted, -⟩ := afterCommit_spec s m
  have hle := hsafe.neg_one_le place
  have hmono : s.committed place ≤ (s.afterCommit m).committed place := by
    rw [hcommitted]
    split_ifs
    · exact le_max_left ..
    · exact le_rfl
  unfold Runtime.position InMemoryTransport.position
  rw [hpositions]
  cases s.transport.positions place with
  | some p => exact le_max_left ..
  | none =>
    refine le_max_of_le_right ?_
    rw [Option.getD_none]
    exact (Int.toNat_of_nonneg (by unfold Runtime.committed at *; omega)).le

theorem kept_afterCommit (s : Runtime) {m : ModelTransportMessage} {other : TopicPartition}
    (hother : other ≠ m.place) : Kept s (s.afterCommit m) other := by
  obtain ⟨hlogs, -, hpositions, hcommitted, -⟩ := afterCommit_spec s m
  have hsame : (s.afterCommit m).committed other = s.committed other := by
    rw [hcommitted, if_neg hother]
  refine ⟨by rw [hlogs], hsame, ?_⟩
  unfold Runtime.position InMemoryTransport.position
  rw [hpositions]
  unfold Runtime.committed at hsame
  rw [hsame]

theorem kept_afterNack (s : Runtime) (m : ModelTransportMessage) {other : TopicPartition}
    (hother : other ≠ m.place) : Kept s (s.afterNack m) other := by
  refine ⟨List.prefix_rfl, rfl, ?_⟩
  unfold Runtime.position InMemoryTransport.position Runtime.afterNack InMemoryTransport.nack
  dsimp only
  rw [Function.update_of_ne hother]

theorem position_afterNack (s : Runtime) (m : ModelTransportMessage) :
    (s.afterNack m).position m.place = min (s.position m.place) m.offset := by
  unfold Runtime.afterNack Runtime.position InMemoryTransport.nack
  show ((Function.update s.transport.positions m.place _) m.place).getD _ = _
  rw [Function.update_self, Option.getD_some]

/-- A commit is safe if every message up to it has been handled. -/
theorem Safe.afterCommit (hsafe : Safe s outputs) (hflight : InFlight s place start messages)
    {last : ModelTransportMessage} (hlast : last ∈ messages)
    (hhandled : ∀ m ∈ messages, m.offset ≤ last.offset → Handled s.broker outputs m) :
    Safe (s.afterCommit last) outputs := by
  obtain ⟨hlogs, -, -, hcommitted, hpending⟩ := afterCommit_spec s last
  obtain ⟨hplace, hrecord⟩ := hflight.record last hlast
  have hmono : ∀ place, s.committed place ≤ (s.afterCommit last).committed place := by
    intro other
    rw [hcommitted]
    split_ifs
    · exact le_max_left ..
    · exact le_rfl
  have hbroker : ∀ m, Handled s.broker outputs m → Handled (s.afterCommit last).broker outputs m := by
    intro m hm
    unfold Handled InMemoryBroker.Appended at hm ⊢
    rw [hlogs]
    exact hm
  refine ⟨?_, fun other => (hsafe.neg_one_le other).trans (hmono other), fun other o ho => ?_,
    fun m hm => ?_⟩
  · unfold InMemoryBroker.Placed
    rw [hlogs]
    exact hsafe.placed
  · rw [hlogs]
    by_cases hold : (o : ℤ) ≤ s.committed other
    · obtain ⟨m, hm, hdone⟩ := hsafe.handled other o hold
      exact ⟨m, hm, hbroker m hdone⟩
    · -- newly committed: the record has been fetched, and is among the messages up to the last
      rw [hcommitted, hplace] at ho
      split_ifs at ho with hother
      · rw [hother] at ho hold ⊢
        have hstart := hflight.start_le
        have hsource := hflight.source last hlast
        have hlt : o ≤ last.offset := by omega
        obtain ⟨m, hm, hrecord'⟩ := hflight.delivered o (by omega) (by omega)
        have hoffset := (hsafe.placed place o m hrecord').2
        exact ⟨m, hrecord', hbroker m (hhandled m hm (by omega))⟩
      · exact absurd ho hold
  · rw [hlogs]
    rcases hpending m hm with hm | hm
    · exact ⟨(hsafe.pending m hm).1, (hsafe.pending m hm).2.trans (hmono m.place)⟩
    · rw [hplace] at hm
      obtain rfl := Option.some.inj (hrecord.symm.trans hm)
      rw [hplace]
      refine ⟨hrecord, ?_⟩
      rw [hcommitted, if_pos hplace.symm]
      exact le_max_right ..

def Runtime.commitLast (s : Runtime) (last : Option ModelTransportMessage) : Runtime :=
  match last with
  | none => s
  | some m => s.afterCommit m

theorem settle_eq (run : GroupRun) :
    settle run = match run.ending with
      | .redeliver m => (run.state.commitLast run.lastCommittable).afterNack m
      | _ => run.state.commitLast run.lastCommittable := by
  unfold settle Runtime.commitLast
  cases run.lastCommittable <;> rfl

/-- What the commit after the loop leaves, where `front` has been handled. -/
structure CommitSpec (s s' : Runtime) (place : TopicPartition)
    (front : List ModelTransportMessage) (outputs : List Output) : Prop where
  safe : Safe s' outputs
  committed_front : ∀ m ∈ front, (m.offset : ℤ) ≤ s'.committed place
  committed_le : s.committed place ≤ s'.committed place
  position_le : (s'.position place : ℤ) ≤ max (s.position place : ℤ) (s'.committed place + 1)
  kept : ∀ other, other ≠ place → Kept s s' other

/-- The last message of the handled front is committed. -/
theorem commitLast_spec (hsafe : Safe s outputs) (hflight : InFlight s place start messages)
    {front back : List ModelTransportMessage}
    (hsplit : sortedAsc (·.offset) messages = front ++ back)
    (hhandled : ∀ m ∈ front, Handled s.broker outputs m) :
    CommitSpec s (s.commitLast (front.getLast?.or none)) place front outputs := by
  have hmem : ∀ m, m ∈ messages ↔ m ∈ front ∨ m ∈ back := by
    intro m
    rw [← (perm_sortedAsc (·.offset) messages).mem_iff, hsplit, List.mem_append]
  have hsorted := pairwise_sortedAsc (·.offset) messages
  rw [hsplit, List.pairwise_append] at hsorted
  rw [Option.or_none]
  rcases List.eq_nil_or_concat front with rfl | ⟨init, last, rfl⟩
  · exact ⟨hsafe, fun _ h => (nomatch h), le_rfl, le_max_left ..,
      fun other _ => ⟨List.prefix_rfl, rfl, rfl⟩⟩
  · rw [List.concat_eq_append] at *
    rw [List.getLast?_append_cons, List.getLast?_singleton]
    have hlast : last ∈ messages := (hmem last).mpr (Or.inl (by simp))
    obtain ⟨hplace, hrecord⟩ := hflight.record last hlast
    have hle : ∀ m ∈ init ++ [last], m.offset ≤ last.offset := by
      intro m hm
      rcases List.mem_append.mp hm with hm | hm
      · exact (List.pairwise_append.mp hsorted.1).2.2 m hm last (List.mem_singleton.mpr rfl)
      · rw [List.mem_singleton.mp hm]
    have hfront : ∀ m ∈ messages, m.offset ≤ last.offset → Handled s.broker outputs m := by
      intro m hm hoffset
      rcases (hmem m).mp hm with hm' | hm'
      · exact hhandled m hm'
      · -- a message after the last one with the same offset is the same record
        have hge := hsorted.2.2 last (by simp) m hm'
        have hsame := (hflight.record m hm).2
        rw [le_antisymm hoffset hge, hrecord] at hsame
        obtain rfl := Option.some.inj hsame
        exact hhandled last (by simp)
    obtain ⟨-, -, -, hcommitted, -⟩ := afterCommit_spec s last
    have hmax : (s.afterCommit last).committed place = max (s.committed place) last.offset := by
      rw [hcommitted, if_pos hplace.symm]
    refine ⟨hsafe.afterCommit hflight hlast hfront, fun m hm => ?_, ?_,
      position_afterCommit_le hsafe last place, fun other hother => ?_⟩
    · refine le_trans ?_ (hmax.ge.trans' (le_max_right ..))
      exact_mod_cast hle m hm
    · exact hmax.ge.trans' (le_max_left ..)
    · exact kept_afterCommit s (by rw [hplace]; exact hother)

/-- The loop over the messages of one partition, and the commit and the nack after it. -/
theorem settle_spec {cfg : Config} {outcomes : ℕ → Outcome} {processed : ℕ}
    (hsafe : Safe s outputs) (hflight : InFlight s place start messages) {run : GroupRun}
    (hrun : s.dispatchGroup cfg outcomes (sortedAsc (·.offset) messages) processed none = run)
    (hends : ∀ e, run.ending ≠ .raised e) :
    Safe (settle run) (outputs ++ run.outputs) ∧ Behind (settle run) place ∧
      ∀ other, other ≠ place → Kept s (settle run) other := by
  obtain ⟨front, back, hsplit, hspec⟩ := dispatchGroup_spec cfg outcomes
    (sortedAsc (·.offset) messages) processed none s
  rw [hrun] at hspec
  have hkept := kept_of_grows hspec.grows hspec.transport
  have hsafe' := hsafe.grows hspec.grows hspec.transport
    (List.subset_append_left outputs run.outputs)
  have hflight' := hflight.kept (hkept place)
  have hcommit := commitLast_spec hsafe' hflight' hsplit fun m hm =>
    (hspec.handled m hm).mono (InMemoryBroker.grows_refl _) (List.subset_append_right ..)
  rw [← hspec.last] at hcommit
  have hmem : ∀ m, m ∈ messages ↔ m ∈ front ∨ m ∈ back := by
    intro m
    rw [← (perm_sortedAsc (·.offset) messages).mem_iff, hsplit, List.mem_append]
  have hothers : ∀ other, other ≠ place →
      Kept s (run.state.commitLast run.lastCommittable) other := fun other hother =>
    let h := hcommit.kept other hother
    ⟨(hkept other).logs.trans h.logs, h.committed.trans (hkept other).committed,
      h.position.trans (hkept other).position⟩
  have hstart := hflight'.start_le
  have hmono := hcommit.committed_le
  have hposition := hcommit.position_le
  rw [settle_eq]
  -- a message that is retried is sought again, behind the commit
  cases hending : run.ending with
  | raised e => exact absurd hending (hends e)
  | finished =>
    obtain rfl := hspec.finished hending
    refine ⟨hcommit.safe, ?_, hothers⟩
    unfold Behind
    dsimp only
    by_cases hempty : run.state.position place = start
    · omega
    · have hle := hflight'.start_le_position
      obtain ⟨m, hm, hrecord⟩ :=
        hflight'.delivered (run.state.position place - 1) (by omega) (by omega)
      have hoffset := (hsafe'.placed place _ m hrecord).2
      have hfront := ((hmem m).mp hm).resolve_right List.not_mem_nil
      have hcovered := hcommit.committed_front m hfront
      omega
  | redeliver r =>
    have hr := hspec.redeliver r hending
    obtain ⟨rest, rfl⟩ : ∃ rest, back = r :: rest := List.head?_eq_some_iff.mp hr
    have hrmem : r ∈ messages := (hmem r).mpr (Or.inr List.mem_cons_self)
    obtain ⟨hplace, hrecord⟩ := hflight'.record r hrmem
    refine ⟨?_, ?_, fun other hother => ?_⟩
    · exact ⟨hcommit.safe.placed, hcommit.safe.neg_one_le, hcommit.safe.handled,
        hcommit.safe.pending⟩
    · unfold Behind
      have hnack := position_afterNack (run.state.commitLast run.lastCommittable) r
      rw [hplace] at hnack
      rw [hnack]
      suffices h : (r.offset : ℤ) ≤
          (run.state.commitLast run.lastCommittable).committed place + 1 by
        exact le_trans (by exact_mod_cast min_le_right _ _) h
      rcases hflight'.source r hrmem with hold | ⟨hge, hlt⟩
      · omega
      · by_cases hfirst : r.offset = start
        · omega
        · obtain ⟨m, hm, hrecord'⟩ := hflight'.delivered (r.offset - 1) (by omega) (by omega)
          have hoffset := (hsafe'.placed place _ m hrecord').2
          have hsorted := pairwise_sortedAsc (·.offset) messages
          rw [hsplit, List.pairwise_append] at hsorted
          have hfront : m ∈ front := by
            refine ((hmem m).mp hm).resolve_right fun hback => ?_
            rcases List.mem_cons.mp hback with rfl | hrest
            · omega
            · have hle := (List.pairwise_cons.mp hsorted.2.1).1 m hrest
              omega
          have hcovered := hcommit.committed_front m hfront
          omega
    · have h := hothers other hother
      have hnack : Kept _ ((run.state.commitLast run.lastCommittable).afterNack r) other :=
        kept_afterNack _ r (by rw [hplace]; exact hother)
      exact ⟨h.logs.trans hnack.logs, hnack.committed.trans h.committed,
        hnack.position.trans h.position⟩

end

end OmnibaseCore.Dispatch
