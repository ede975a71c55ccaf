import OmnibaseCore.Dispatch.StrandTheorems

/-!
# What is done with each offset

The events of a run: every message that is dispatched, the failures included, and every one that
is sent to its dead-letter topic. A ledger says how far each offset is: before the fetch position
it is settled, from there on it has failed as often as the runtime counts.

* `Ledger.terminates`, `Ledger.redelivers`, `Ledger.raises`: one message.
* `Ledger.group`: the messages of a partition.
-/

namespace OmnibaseCore.Dispatch

open OmnibaseCore.Dispatch.Runtime

/-! ## Events -/

/-- What is done with a message, failures included. -/
inductive Event
  | dispatched (m : ModelTransportMessage) (disposition : EnumDeliveryDisposition)
  | deadLettered (m : ModelTransportMessage)

namespace Event

def message : Event → ModelTransportMessage
  | .dispatched m _ => m
  | .deadLettered m => m

def isAt (place : TopicPartition) (o : ℕ) (e : Event) : Bool :=
  e.message.place = place && e.message.offset = o

def isDispatch : Event → Bool
  | .dispatched _ _ => true
  | .deadLettered _ => false

def isSuccess : Event → Bool
  | .dispatched _ .commit => true
  | _ => false

def isDeadLetter : Event → Bool
  | .dispatched _ _ => false
  | .deadLettered _ => true

/-- The message is terminalized. -/
def isTerminal (e : Event) : Bool := e.isSuccess || e.isDeadLetter

end Event

namespace Runtime

def groupEvents (cfg : Config) (outcomes : ℕ → Outcome) :
    List ModelTransportMessage → ℕ → Runtime → List Event
  | [], _, _ => []
  | m :: rest, processed, s =>
    match s.dispatchOne cfg (outcomes processed) m with
    | (.commit, s) => .dispatched m .commit :: groupEvents cfg outcomes rest (processed + 1) s
    | (.dlq, s) =>
      match s.sendToDlq cfg (outcomes processed) m with
      | .error _ => [.dispatched m .dlq]
      | .ok (_, s) =>
        .dispatched m .dlq :: .deadLettered m :: groupEvents cfg outcomes rest (processed + 1) s
    | (.redeliver, _) => [.dispatched m .redeliver]

def loopEvents (cfg : Config) (outcomes : ℕ → Outcome) :
    List (TopicPartition × List ModelTransportMessage) → ℕ → Runtime → List Event
  | [], _, _ => []
  | (_, messages) :: rest, processed, s =>
    let sorted := sortedAsc (·.offset) messages
    let run := s.dispatchGroup cfg outcomes sorted processed none
    s.groupEvents cfg outcomes sorted processed ++
      match run.ending with
      | .raised _ => []
      | _ => loopEvents cfg outcomes rest run.processed (settle run)

def cycleEvents (cfg : Config) (s : Runtime) (outcomes : ℕ → Outcome) : List Event :=
  match s.transport.poll s.broker cfg.maxMessages with
  | .error _ => []
  | .ok (batch, transport) => loopEvents cfg outcomes (groups batch) 0 { s with transport }

end Runtime

/-! ## The ledger -/

def eventsAt (events : List Event) (place : TopicPartition) (o : ℕ) : List Event :=
  events.filter (Event.isAt place o)

/-- The offset has only failed, as often as that. -/
structure Pending (cfg : Config) (events : List Event) (attempts : ℕ) : Prop where
  failed : ∀ e ∈ events, e.isTerminal = false
  length : events.length = attempts
  bounded : (attempts : ℤ) ≤ cfg.maxRetries

/-- The offset has been dispatched once more than it may be retried, at most, and terminalized
once, at most. -/
structure Settled (cfg : Config) (events : List Event) : Prop where
  dispatches : (events.countP Event.isDispatch : ℤ) ≤ cfg.maxRetries + 1
  terminals : events.countP Event.isTerminal ≤ 1

def Terminalized (events : List Event) (place : TopicPartition) (o : ℕ) : Prop :=
  ∃ e ∈ events, e.isTerminal = true ∧ e.message.place = place ∧ e.message.offset = o

/-- Every event comes after the smaller offsets of its partition, from `base` on, have been
terminalized. -/
def Ordered (base : TopicPartition → ℕ) (events : List Event) : Prop :=
  ∀ before e after, events = before ++ e :: after → ∀ o < e.message.offset,
    base e.message.place ≤ o → Terminalized before e.message.place o

/-- How far each offset is: settled before `start`, from there on it has failed as often as
`attempts` counts. If all is orderly, offsets are terminalized one after the other. -/
structure Ledger (cfg : Config) (orderly : Prop) (base start : TopicPartition → ℕ)
    (attempts : TopicPartition × ℕ → ℕ) (events : List Event) : Prop where
  pending : ∀ place o, start place ≤ o →
    Pending cfg (eventsAt events place o) (attempts (place, o))
  settled : ∀ place o, o < start place → Settled cfg (eventsAt events place o)
  terminalized : orderly → ∀ place o, base place ≤ o → o < start place →
    Terminalized events place o
  ordered : orderly → Ordered base events

section
variable {cfg : Config} {orderly : Prop} {base start : TopicPartition → ℕ}
  {attempts : TopicPartition × ℕ → ℕ} {events es : List Event} {m : ModelTransportMessage}
  {place : TopicPartition} {o : ℕ}

theorem isAt_eq_true_iff {e : Event} :
    e.isAt place o = true ↔ e.message.place = place ∧ e.message.offset = o := by
  simp [Event.isAt]

theorem eventsAt_append_of_message (hes : ∀ e ∈ es, e.message = m) :
    eventsAt (events ++ es) place o
      = if m.place = place ∧ m.offset = o then eventsAt events place o ++ es
        else eventsAt events place o := by
  unfold eventsAt
  rw [List.filter_append]
  by_cases hat : m.place = place ∧ m.offset = o
  · have hall : es.filter (Event.isAt place o) = es := by
      apply List.filter_eq_self.mpr
      intro e he
      rw [isAt_eq_true_iff, hes e he]
      exact hat
    rw [if_pos hat, hall]
  · have hnone : es.filter (Event.isAt place o) = [] := by
      apply List.filter_eq_nil_iff.mpr
      intro e he
      rw [isAt_eq_true_iff, hes e he]
      exact hat
    rw [if_neg hat, hnone, List.append_nil]

/-! ### One message -/

theorem Pending.settle {attempts : ℕ} (h : Pending cfg events attempts)
    (hdispatches : es.countP Event.isDispatch ≤ 1) (hterminals : es.countP Event.isTerminal ≤ 1) :
    Settled cfg (events ++ es) := by
  have hbounded := h.bounded
  have hlength := h.length
  have hle : events.countP Event.isDispatch ≤ events.length := List.countP_le_length
  have hnone : events.countP Event.isTerminal = 0 :=
    List.countP_eq_zero.mpr fun e he => by simp [h.failed e he]
  constructor
  · rw [List.countP_append]
    push_cast
    omega
  · rw [List.countP_append]
    omega

theorem Pending.settled {attempts : ℕ} (h : Pending cfg events attempts) : Settled cfg events := by
  have hsettle := @Pending.settle cfg events [] attempts h (by simp) (by simp)
  rwa [List.append_nil] at hsettle

theorem Ledger.all_settled (h : Ledger cfg orderly base start attempts events)
    (place : TopicPartition) (o : ℕ) : Settled cfg (eventsAt events place o) := by
  by_cases hstart : start place ≤ o
  · exact (h.pending place o hstart).settled
  · exact h.settled place o (not_le.mp hstart)

theorem Terminalized.append (h : Terminalized events place o) :
    Terminalized (events ++ es) place o := by
  obtain ⟨e, he, hterminal⟩ := h
  exact ⟨e, List.mem_append_left es he, hterminal⟩

theorem Ordered.concat (h : Ordered base events) {e : Event}
    (he : ∀ o < e.message.offset, base e.message.place ≤ o →
      Terminalized events e.message.place o) : Ordered base (events ++ [e]) := by
  intro before e' after hsplit o ho hbase
  rcases List.eq_nil_or_concat after with rfl | ⟨after, last, rfl⟩
  · obtain ⟨rfl, hlast⟩ := List.append_inj' hsplit rfl
    obtain rfl := List.cons.inj hlast |>.1
    exact he o ho hbase
  · rw [List.concat_eq_append, ← List.cons_append, ← List.append_assoc] at hsplit
    obtain ⟨hevents, -⟩ := List.append_inj' hsplit rfl
    exact h before e' after hevents o ho hbase

section
variable (h : Ledger cfg orderly base start attempts events)
include h

/-- A later start, of offsets that are not orderly. -/
theorem Ledger.later {start' : TopicPartition → ℕ} (hle : ∀ place, start place ≤ start' place) :
    Ledger cfg False base start' attempts events where
  pending place o ho := h.pending place o ((hle place).trans ho)
  settled place o _ := h.all_settled place o
  terminalized := nofun
  ordered := nofun

section
variable (hoffset : m.offset = start m.place)
include hoffset

/-- A message that is dispatched at most once and settled once moves its place on. -/
theorem Ledger.settles (hmessage : ∀ e ∈ es, e.message = m)
    (hdispatches : es.countP Event.isDispatch ≤ 1) (hterminals : es.countP Event.isTerminal ≤ 1) :
    Ledger cfg False base (Function.update start m.place (m.offset + 1))
      (Function.update attempts (m.place, m.offset) 0) (events ++ es) := by
  have hbefore : ∀ place o, o < Function.update start m.place (m.offset + 1) place →
      m.place = place ∧ m.offset = o ∨ ¬ (m.place = place ∧ m.offset = o) ∧ o < start place := by
    intro place o ho
    by_cases hplace : place = m.place
    · subst hplace
      rw [Function.update_self] at ho
      by_cases hm : m.offset = o
      · exact Or.inl ⟨rfl, hm⟩
      · exact Or.inr ⟨fun hat => hm hat.2, by omega⟩
    · rw [Function.update_of_ne hplace] at ho
      exact Or.inr ⟨fun hat => hplace hat.1.symm, ho⟩
  constructor
  · intro place o ho
    have hat : ¬ (m.place = place ∧ m.offset = o) := by
      intro ⟨hplace, hm⟩
      subst hplace
      rw [Function.update_self] at ho
      omega
    have hstart : start place ≤ o := by
      by_cases hplace : place = m.place
      · subst hplace
        rw [Function.update_self] at ho
        omega
      · rwa [Function.update_of_ne hplace] at ho
    have hkey : (place, o) ≠ (m.place, m.offset) := fun heq =>
      hat ⟨(Prod.mk.inj heq).1.symm, (Prod.mk.inj heq).2.symm⟩
    rw [eventsAt_append_of_message hmessage, if_neg hat, Function.update_of_ne hkey]
    exact h.pending place o hstart
  · intro place o ho
    rw [eventsAt_append_of_message hmessage]
    rcases hbefore place o ho with hat | ⟨hat, hlt⟩
    · rw [if_pos hat]
      refine (h.pending place o ?_).settle hdispatches hterminals
      rw [← hat.1, ← hat.2, hoffset]
    · rw [if_neg hat]
      exact h.settled place o hlt
  · exact nofun
  · exact nofun

/-- The message at the start is dispatched successfully, or is dead-lettered. -/
theorem Ledger.terminates
    (hes : es = [.dispatched m .commit] ∨ es = [.dispatched m .dlq, .deadLettered m]) :
    Ledger cfg orderly base (Function.update start m.place (m.offset + 1))
      (Function.update attempts (m.place, m.offset) 0) (events ++ es) := by
  have hmessage : ∀ e ∈ es, e.message = m := by
    rcases hes with rfl | rfl <;> simp [Event.message]
  have hcounts : es.countP Event.isDispatch ≤ 1 ∧ es.countP Event.isTerminal ≤ 1 := by
    rcases hes with rfl | rfl <;> exact ⟨le_rfl, le_rfl⟩
  have hsettles := h.settles hoffset hmessage hcounts.1 hcounts.2
  have hend : Terminalized (events ++ es) m.place m.offset := by
    rcases hes with rfl | rfl
    · exact ⟨.dispatched m .commit, by simp, rfl, rfl, rfl⟩
    · exact ⟨.deadLettered m, by simp, rfl, rfl, rfl⟩
  have hsmaller : orderly → ∀ o < m.offset, base m.place ≤ o → Terminalized events m.place o := by
    intro horderly o ho hbase
    exact h.terminalized horderly m.place o hbase (by rwa [← hoffset])
  refine ⟨hsettles.pending, hsettles.settled, fun horderly place o hbase ho => ?_,
    fun horderly => ?_⟩
  · by_cases hplace : place = m.place
    · subst hplace
      rw [Function.update_self] at ho
      by_cases hm : o = m.offset
      · rw [hm]
        exact hend
      · exact (hsmaller horderly o (by omega) hbase).append
    · rw [Function.update_of_ne hplace] at ho
      exact (h.terminalized horderly place o hbase ho).append
  · rcases hes with rfl | rfl
    · exact (h.ordered horderly).concat (hsmaller horderly)
    · have hfirst := (h.ordered horderly).concat (e := .dispatched m .dlq) (hsmaller horderly)
      have hsecond := hfirst.concat (e := .deadLettered m) fun o ho hbase =>
        (hsmaller horderly o ho hbase).append
      rwa [List.append_assoc] at hsecond

/-- The message at the start fails once more. -/
theorem Ledger.redelivers (hretries : (attempts (m.place, m.offset) + 1 : ℤ) ≤ cfg.maxRetries) :
    Ledger cfg orderly base start
      (Function.update attempts (m.place, m.offset) (attempts (m.place, m.offset) + 1))
      (events ++ [.dispatched m .redeliver]) := by
  have hmessage : ∀ e ∈ [Event.dispatched m .redeliver], e.message = m := by simp [Event.message]
  refine ⟨fun place o ho => ?_, fun place o ho => ?_, fun horderly place o hbase ho => ?_,
    fun horderly => ?_⟩
  · have hpending := h.pending place o ho
    rw [eventsAt_append_of_message hmessage]
    by_cases hat : m.place = place ∧ m.offset = o
    · obtain ⟨rfl, rfl⟩ := hat
      rw [if_pos ⟨rfl, rfl⟩, Function.update_self]
      refine ⟨fun e he => ?_, ?_, by exact_mod_cast hretries⟩
      · rcases List.mem_append.mp he with he | he
        · exact hpending.failed e he
        · rw [List.mem_singleton.mp he]
          rfl
      · rw [List.length_append, hpending.length, List.length_singleton]
    · have hkey : (place, o) ≠ (m.place, m.offset) := fun heq =>
        hat ⟨(Prod.mk.inj heq).1.symm, (Prod.mk.inj heq).2.symm⟩
      rw [if_neg hat, Function.update_of_ne hkey]
      exact hpending
  · have hat : ¬ (m.place = place ∧ m.offset = o) := by
      intro ⟨hplace, hm⟩
      rw [← hplace, ← hm, hoffset] at ho
      exact lt_irrefl _ ho
    rw [eventsAt_append_of_message hmessage, if_neg hat]
    exact h.settled place o ho
  · exact (h.terminalized horderly place o hbase ho).append
  · refine (h.ordered horderly).concat fun o ho hbase => ?_
    exact h.terminalized horderly m.place o hbase (lt_of_lt_of_eq ho hoffset)

/-- The message at the start is out of retries, but its dead-letter send raises an error. -/
theorem Ledger.raises :
    Ledger cfg False base (Function.update start m.place (m.offset + 1))
      (Function.update attempts (m.place, m.offset) 0) (events ++ [.dispatched m .dlq]) :=
  h.settles hoffset (by simp [Event.message]) le_rfl (Nat.zero_le 1)

end

end

/-! ### The messages of a partition -/

theorem retries_of_redeliver {n : ℕ} {outcome : Outcome}
    (h : disposition cfg n outcome = .redeliver) : (n + 1 : ℤ) ≤ cfg.maxRetries := by
  by_contra hnot
  have hmax : cfg.maxRetries < n + 1 := not_le.mp hnot
  unfold disposition at h
  cases houtbound : outcome.outbound with
  | none => simp [houtbound, hmax] at h
  | some outbound =>
    simp only [houtbound, if_pos hmax] at h
    split_ifs at h

/-- What the loop over the messages of a partition leaves: the offsets before `stop` are settled. -/
structure GroupLedger (cfg : Config) (orderly : Prop) (base start : TopicPartition → ℕ)
    (place : TopicPartition) (length : ℕ) (run : GroupRun) (events : List Event) (stop : ℕ) :
    Prop where
  start_le : start place ≤ stop
  stop_le : stop ≤ start place + length
  finished : run.ending = .finished → stop = start place + length
  redeliver : ∀ m, run.ending = .redeliver m → m.place = place ∧ m.offset = stop
  ledger : Ledger cfg (orderly ∧ ∀ e, run.ending ≠ .raised e) base
    (Function.update start place stop) run.state.attempts events

theorem GroupLedger.cons {length stop : ℕ} {run : GroupRun} {output : Output}
    (h : GroupLedger cfg orderly base (Function.update start place (start place + 1)) place length
      run events stop) :
    GroupLedger cfg orderly base start place (length + 1)
      { run with outputs := output :: run.outputs } events stop := by
  obtain ⟨hstart, hstop, hfinished, hredeliver, hledger⟩ := h
  rw [Function.update_self] at hstart hstop hfinished
  rw [Function.update_idem] at hledger
  exact ⟨by omega, by omega, fun hend => by rw [hfinished hend]; omega, hredeliver, hledger⟩

/-- The ledger over the messages of a group, up to where the group stops. -/
theorem Ledger.group {outcomes : ℕ → Outcome} {messages : List ModelTransportMessage}
    (processed : ℕ) (last : Option ModelTransportMessage) {s : Runtime}
    (hplace : ∀ m ∈ messages, m.place = place)
    (hoffsets : messages.map (·.offset) = List.range' (start place) messages.length)
    (h : Ledger cfg orderly base start s.attempts events) :
    ∃ stop, GroupLedger cfg orderly base start place messages.length
      (s.dispatchGroup cfg outcomes messages processed last)
      (events ++ s.groupEvents cfg outcomes messages processed) stop := by
  induction messages generalizing processed last s start events with
  | nil =>
    refine ⟨start place, le_rfl, le_rfl, fun _ => rfl, fun m hm => (by cases hm), ?_⟩
    rw [Function.update_eq_self]
    show Ledger cfg _ base start s.attempts (events ++ [])
    rw [List.append_nil]
    exact ⟨h.pending, h.settled, fun horderly => h.terminalized horderly.1,
      fun horderly => h.ordered horderly.1⟩
  | cons m rest ih =>
    rw [List.map_cons, List.length_cons, List.range'_succ, List.cons.injEq] at hoffsets
    obtain ⟨hoffset, hoffsets⟩ := hoffsets
    obtain rfl := hplace m List.mem_cons_self
    have hrest : ∀ m' ∈ rest, m'.place = m.place := fun m' hm' =>
      hplace m' (List.mem_cons_of_mem m hm')
    obtain ⟨hdisposition, hattempts⟩ := dispatchOne_disposition cfg s (outcomes processed) m
    rw [← hdisposition] at hattempts
    -- the rest starts one offset later
    have hnext : ∀ {s' : Runtime} {es : List Event} (last' : Option ModelTransportMessage),
        es = [.dispatched m .commit] ∨ es = [.dispatched m .dlq, .deadLettered m] →
        s'.attempts = Function.update s.attempts (m.place, m.offset) 0 →
        ∃ stop, GroupLedger cfg orderly base (Function.update start m.place (start m.place + 1))
          m.place rest.length (s'.dispatchGroup cfg outcomes rest (processed + 1) last')
          ((events ++ es) ++ s'.groupEvents cfg outcomes rest (processed + 1)) stop := by
      intro s' es last' hes hattempts'
      have hterminates := h.terminates hoffset hes
      rw [← hattempts', hoffset] at hterminates
      refine ih (processed + 1) last' hrest ?_ hterminates
      rw [Function.update_self]
      exact hoffsets
    unfold Runtime.dispatchGroup Runtime.groupEvents
    cases hdispatched : s.dispatchOne cfg (outcomes processed) m with
    | mk disposition s' =>
      rw [hdispatched] at hattempts hdisposition
      cases disposition with
      | commit =>
        rw [if_neg (by simp)] at hattempts
        obtain ⟨stop, hstop⟩ := hnext (some m) (Or.inl rfl) hattempts
        rw [List.append_assoc] at hstop
        exact ⟨stop, hstop.cons⟩
      | dlq =>
        rw [if_neg (by simp)] at hattempts
        have hsent := sendToDlq_raises cfg s' (outcomes processed) m
        dsimp only
        cases hsend : s'.sendToDlq cfg (outcomes processed) m with
        | error e =>
          refine ⟨start m.place + 1, by omega, by simp, fun hend => (by cases hend),
            fun m' hm' => (by cases hm'), ?_⟩
          have hraises := h.raises hoffset
          rw [← hattempts, hoffset] at hraises
          exact ⟨hraises.pending, hraises.settled, fun horderly => absurd rfl (horderly.2 e),
            fun horderly => absurd rfl (horderly.2 e)⟩
        | ok sent =>
          obtain ⟨topic, s''⟩ := sent
          rw [hsend] at hsent
          obtain ⟨stop, hstop⟩ := hnext (some m) (Or.inr rfl) (hsent.2.trans hattempts)
          rw [List.append_assoc] at hstop
          exact ⟨stop, hstop.cons⟩
      | redeliver =>
        rw [if_pos rfl] at hattempts
        have hretries := retries_of_redeliver hdisposition.symm
        refine ⟨start m.place, le_rfl, by omega, fun hend => (by cases hend), fun m' hm' => ?_, ?_⟩
        · cases hm'
          exact ⟨rfl, hoffset⟩
        · have hredelivers := h.redelivers hoffset hretries
          rw [Function.update_eq_self]
          rw [← hattempts] at hredelivers
          exact ⟨hredelivers.pending, hredelivers.settled,
            fun horderly => hredelivers.terminalized horderly.1,
            fun horderly => hredelivers.ordered horderly.1⟩

end

end OmnibaseCore.Dispatch
