import OmnibaseCore.Dispatch.Ledger

/-!
# The ledger of a cycle

Over a transport without chaos mode a poll delivers, of each partition, the records from the fetch
position on, each once, so the loop over a partition dispatches them one after the other.

* `Ledger.cycle`: a cycle settles offsets from the fetch position on, and leaves the fetch position
  behind them.
-/

namespace OmnibaseCore.Dispatch

open OmnibaseCore.Dispatch.Runtime

/-! ## A poll without duplicates -/

structure ChaosFree (s : Runtime) : Prop where
  placed : s.broker.Placed
  mode : s.transport.chaosDuplicate = false
  pending : s.transport.chaosPending = []

/-- The groups hold what has been fetched from `start` on. -/
structure Polled (start : TopicPartition → ℕ) (s : Runtime)
    (groups : List (TopicPartition × List ModelTransportMessage)) : Prop where
  nodup : (groups.map Prod.fst).Nodup
  places : ∀ entry ∈ groups, ∀ m ∈ entry.2, m.place = entry.1
  offsets : ∀ entry ∈ groups, (sortedAsc (·.offset) entry.2).map (·.offset)
    = List.range' (start entry.1) entry.2.length
  position : ∀ entry ∈ groups, s.position entry.1 = start entry.1 + entry.2.length
  known : ∀ entry ∈ groups, entry.2 ≠ [] → s.transport.positions entry.1 ≠ none
  others : ∀ place, place ∉ groups.map Prod.fst → s.position place = start place

section
variable {b : InMemoryBroker} {t t' : InMemoryTransport} {batch : List ModelTransportMessage}
  {place : TopicPartition} {m : ModelTransportMessage} {maxMessages : ℤ}

theorem positions_turns (n : ℕ) {places : List TopicPartition}
    (h : t.positions place ≠ none) :
    (places.foldl (InMemoryTransport.pollPartition b n) (batch, t)).2.positions place ≠ none := by
  induction places generalizing batch t with
  | nil => exact h
  | cons head rest ih =>
    have hturn :
        (InMemoryTransport.pollPartition b n (batch, t) head).2.positions place ≠ none := by
      by_cases hroom : batch.length < n
      · unfold InMemoryTransport.pollPartition
        dsimp only
        rw [if_neg (not_le.mpr hroom)]
        dsimp only
        by_cases hplace : place = head
        · rw [hplace, Function.update_self]
          exact nofun
        · rwa [Function.update_of_ne hplace]
      · rwa [pollPartition_of_full hroom]
    exact ih hturn

/-- What a poll delivers if nothing is to be duplicated. -/
structure FreshBatch (b : InMemoryBroker) (t t' : InMemoryTransport)
    (batch : List ModelTransportMessage) : Prop where
  le : ∀ place, t.position b place ≤ t'.position b place
  record : ∀ m ∈ batch, (b.logs m.place)[m.offset]? = some m ∧
    t.position b m.place ≤ m.offset ∧ m.offset < t'.position b m.place
  delivered : ∀ place o, t.position b place ≤ o → o < t'.position b place →
    ∃ m ∈ batch, m.place = place ∧ m.offset = o
  nodup : batch.Nodup
  known : ∀ m ∈ batch, t'.positions m.place ≠ none
  assigned : ∀ m ∈ batch, m.place ∈ t.places b
  same : t' = { t with positions := t'.positions }

/-- Without chaos, a poll returns each message that it moves a position over once. -/
theorem freshBatch_of_poll (hplaced : b.Placed) (hpending : t.chaosPending = [])
    (h : t.poll b maxMessages = .ok (batch, t')) : FreshBatch b t t' batch := by
  have hfetched := poll_fetched h
  rw [hpending, List.drop_nil, List.take_nil] at hfetched
  have hsame : { t with chaosPending := [] } = t := by rw [← hpending]
  rw [hsame] at hfetched
  have hmem : ∀ m ∈ batch, (b.logs m.place)[m.offset]? = some m ∧
      t.position b m.place ≤ m.offset ∧ m.offset < t'.position b m.place := by
    intro m hm
    obtain ⟨place, o, hle, hlt, ho⟩ := (hfetched.source m hm).resolve_left List.not_mem_nil
    obtain ⟨rfl, rfl⟩ := hplaced place o m ho
    exact ⟨ho, hle, hlt⟩
  refine ⟨hfetched.le, hmem, fun place o hle hlt => ?_, ?_, fun m hm hnone => ?_, fun m hm => ?_,
    hfetched.same⟩
  · obtain ⟨m, hm, hrecord⟩ := hfetched.delivered place o hle hlt
    exact ⟨m, hm, hplaced place o m hrecord⟩
  · rw [List.nodup_iff_count_le_one]
    intro m
    exact hfetched.once hplaced m List.not_mem_nil
  · -- a position that is not known has not moved
    obtain ⟨-, hle, hlt⟩ := hmem m hm
    obtain ⟨-, -, hfold⟩ := poll_eq_ok h
    rw [hpending, List.drop_nil, List.take_nil, hsame] at hfold
    have hknown := @positions_turns b t [] m.place maxMessages.toNat (t.places b)
    rw [hfold] at hknown
    have hnone' : t.positions m.place = none := by
      by_contra hsome
      exact hknown hsome hnone
    have hposition : t'.position b m.place = t.position b m.place := by
      have hgroup : t'.group = t.group := by rw [hfetched.same]
      unfold InMemoryTransport.position
      rw [hnone, hnone', hgroup]
    omega
  · rcases poll_assigned hplaced h hm with hm' | hm'
    · rw [hpending] at hm'
      exact absurd hm' List.not_mem_nil
    · exact hm'

end

section
variable {cfg : Config} {orderly : Prop} {base start : TopicPartition → ℕ} {s : Runtime}
  {events : List Event} {batch : List ModelTransportMessage} {t' : InMemoryTransport}

theorem polled_of_poll (hfree : ChaosFree s)
    (h : s.transport.poll s.broker cfg.maxMessages = .ok (batch, t')) :
    Polled s.position { s with transport := t' } (groups batch) := by
  have hfresh := freshBatch_of_poll hfree.placed hfree.pending h
  obtain ⟨hnodup, hgroups, hkeys⟩ := groups_spec batch
  have hmem : ∀ entry ∈ groups batch, ∀ m, m ∈ entry.2 ↔ m ∈ batch ∧ m.place = entry.1 := by
    intro entry hentry m
    rw [hgroups entry hentry, List.mem_filter, decide_eq_true_eq]
  have hoffsets : ∀ entry ∈ groups batch,
      (entry.2.map (·.offset)).Perm (List.range' (s.position entry.1)
        (t'.position s.broker entry.1 - s.position entry.1)) := by
    intro entry hentry
    have hmem := hmem entry hentry
    have hentry := hgroups entry hentry
    have hinjective : ∀ m ∈ entry.2, ∀ m' ∈ entry.2, m.offset = m'.offset → m = m' := by
      intro m hm m' hm' hoffset
      obtain ⟨hm, hplace⟩ := (hmem m).mp hm
      obtain ⟨hm', hplace'⟩ := (hmem m').mp hm'
      have hrecord := (hfresh.record m hm).1
      have hrecord' := (hfresh.record m' hm').1
      rw [hplace', ← hplace, ← hoffset, hrecord] at hrecord'
      exact Option.some.inj hrecord'
    have hnodup' : (entry.2.map (·.offset)).Nodup := by
      rw [hentry]
      rw [hentry] at hinjective
      exact (hfresh.nodup.filter _).map_on hinjective
    apply (List.perm_ext_iff_of_nodup hnodup' List.nodup_range').mpr
    intro o
    have hle : s.position entry.1 ≤ t'.position s.broker entry.1 := hfresh.le entry.1
    rw [List.mem_map, List.mem_range'_1, Nat.add_sub_cancel' hle]
    constructor
    · intro ⟨m, hm, hoffset⟩
      obtain ⟨hm, hplace⟩ := (hmem m).mp hm
      obtain ⟨-, hbounds⟩ := hfresh.record m hm
      rw [hplace, hoffset] at hbounds
      exact hbounds
    · intro ⟨hstart, hstop⟩
      obtain ⟨m, hm, hplace, hoffset⟩ := hfresh.delivered entry.1 o hstart hstop
      exact ⟨m, (hmem m).mpr ⟨hm, hplace⟩, hoffset⟩
  have hlength : ∀ entry ∈ groups batch,
      entry.2.length = t'.position s.broker entry.1 - s.position entry.1 := by
    intro entry hentry
    have h := (hoffsets entry hentry).length_eq
    rwa [List.length_map, List.length_range'] at h
  refine ⟨hnodup, fun entry hentry m hm => ((hmem entry hentry m).mp hm).2, fun entry hentry => ?_,
    fun entry hentry => ?_, fun entry hentry hne => ?_, fun place hplace => ?_⟩
  · -- both are in ascending order
    rw [hlength entry hentry]
    have hsorted := pairwise_sortedAsc (·.offset) entry.2
    have hperm := ((perm_sortedAsc (·.offset) entry.2).map (·.offset)).trans (hoffsets entry hentry)
    have hascending : ((sortedAsc (·.offset) entry.2).map (·.offset)).Pairwise fun o o' => o ≤ o' :=
      List.pairwise_map.mpr hsorted
    exact hperm.eq_of_pairwise (fun _ _ _ _ => le_antisymm) hascending (List.pairwise_le_range' 1)
  · have hle : s.position entry.1 ≤ t'.position s.broker entry.1 := hfresh.le entry.1
    rw [hlength entry hentry, Nat.add_sub_cancel' hle]
    rfl
  · obtain ⟨m, hm⟩ := List.exists_mem_of_ne_nil entry.2 hne
    obtain ⟨hm, hplace⟩ := (hmem entry hentry m).mp hm
    rw [← hplace]
    exact hfresh.known m hm
  · -- of a partition that is not in the batch nothing has been fetched
    have hle : s.position place ≤ t'.position s.broker place := hfresh.le place
    refine le_antisymm (not_lt.mp fun hlt => hplace ?_) hle
    obtain ⟨m, hm, hplace', -⟩ := hfresh.delivered place _ le_rfl hlt
    rw [← hplace']
    exact hkeys m hm

/-! ## The commit and the nack after a partition -/

theorem transport_commitLast (h : s.transport.chaosDuplicate = false)
    (last : Option ModelTransportMessage) : (s.commitLast last).transport = s.transport := by
  cases last with
  | none => rfl
  | some m =>
    show (s.transport.commit s.broker m).1 = s.transport
    unfold InMemoryTransport.commit
    dsimp only
    rw [if_neg (by simp [h])]

theorem position_commitLast {last : Option ModelTransportMessage}
    (hknown : ∀ m, last = some m → s.transport.positions m.place ≠ none)
    (place : TopicPartition) : (s.commitLast last).position place = s.position place := by
  cases last with
  | none => rfl
  | some m =>
    by_cases hplace : place = m.place
    · obtain ⟨-, -, hpositions, -, -⟩ := afterCommit_spec s m
      obtain ⟨p, hp⟩ := Option.ne_none_iff_exists'.mp (hknown m rfl)
      show ((s.afterCommit m).transport.positions place).getD _
        = (s.transport.positions place).getD _
      rw [hpositions, hplace, hp, Option.getD_some, Option.getD_some]
    · exact (kept_afterCommit s hplace).position

theorem logs_commitLast (last : Option ModelTransportMessage) :
    (s.commitLast last).broker.logs = s.broker.logs := by
  cases last with
  | none => rfl
  | some m => exact (afterCommit_spec s m).1

/-- What the commit and the nack after a partition leave. -/
structure SettleSpec (place : TopicPartition) (run : GroupRun) : Prop where
  chaosFree : ChaosFree (settle run)
  known : ∀ other, other ≠ place →
    (settle run).transport.positions other = run.state.transport.positions other
  others : ∀ other, other ≠ place → (settle run).position other = run.state.position other
  finished : run.ending = .finished → (settle run).position place = run.state.position place
  redeliver : ∀ m, run.ending = .redeliver m →
    (settle run).position place = min (run.state.position place) m.offset

theorem settleSpec {place : TopicPartition} {run : GroupRun} (hfree : ChaosFree run.state)
    (hmessages : ∀ m, run.lastCommittable = some m ∨ run.ending = .redeliver m →
      m.place = place ∧ run.state.transport.positions place ≠ none) : SettleSpec place run := by
  have htransport := transport_commitLast hfree.mode run.lastCommittable
  have hposition : ∀ other, (run.state.commitLast run.lastCommittable).position other
      = run.state.position other := by
    apply position_commitLast
    intro m hm
    obtain ⟨hplace, hknown⟩ := hmessages m (Or.inl hm)
    rwa [hplace]
  have hcommit : ChaosFree (run.state.commitLast run.lastCommittable) := by
    refine ⟨?_, by rw [htransport]; exact hfree.mode, by rw [htransport]; exact hfree.pending⟩
    unfold InMemoryBroker.Placed
    rw [logs_commitLast]
    exact hfree.placed
  have hplain : (∀ m, run.ending ≠ .redeliver m) →
      settle run = run.state.commitLast run.lastCommittable := by
    intro hend
    rw [settle_eq]
    cases hending : run.ending with
    | redeliver m => exact absurd hending (hend m)
    | finished => rfl
    | raised e => rfl
  by_cases hend : ∀ m, run.ending ≠ .redeliver m
  · rw [← hplain hend] at htransport hposition hcommit
    exact ⟨hcommit, fun other _ => by rw [htransport], fun other _ => hposition other,
      fun _ => hposition place, fun m hm => absurd hm (hend m)⟩
  · push Not at hend
    obtain ⟨m, hm⟩ := hend
    obtain ⟨hplace, -⟩ := hmessages m (Or.inr hm)
    have hnack : settle run = (run.state.commitLast run.lastCommittable).afterNack m := by
      rw [settle_eq, hm]
    have hkept : ∀ other, other ≠ place →
        Kept (run.state.commitLast run.lastCommittable) (settle run) other := by
      intro other hother
      rw [hnack]
      exact kept_afterNack _ m (by rwa [hplace])
    refine ⟨?_, fun other hother => ?_, fun other hother => ?_, fun hfinished => ?_,
      fun m' hm' => ?_⟩
    · rw [hnack]
      exact ⟨hcommit.placed, hcommit.mode, hcommit.pending⟩
    · rw [hnack, ← htransport]
      exact Function.update_of_ne (by rwa [hplace]) _ _
    · rw [(hkept other hother).position, hposition]
    · rw [hm] at hfinished
      exact nomatch hfinished
    · rw [hm, GroupEnd.redeliver.injEq] at hm'
      have hmin := position_afterNack (run.state.commitLast run.lastCommittable) m
      rw [hnack, ← hm', ← hplace, hmin, hposition]

/-! ## A cycle -/

/-- What the loop over the partitions leaves: if it returns, the offsets before the fetch positions
are settled and the others are not. -/
structure LoopLedger (cfg : Config) (orderly : Prop) (base start stop : TopicPartition → ℕ)
    (s' : Runtime) (returns : Prop) (events : List Event) : Prop where
  chaosFree : ChaosFree s'
  start_le : ∀ place, start place ≤ stop place
  stop_le : ∀ place, stop place ≤ s'.position place
  returned : returns → ∀ place, s'.position place = stop place
  ledger : Ledger cfg (orderly ∧ returns) base stop s'.attempts events

variable {outcomes : ℕ → Outcome}

variable {groups : List (TopicPartition × List ModelTransportMessage)}

/-- The ledger over the groups of a batch. -/
theorem Ledger.loop (processed : ℕ) (hfree : ChaosFree s) (hpolled : Polled start s groups)
    (h : Ledger cfg orderly base start s.attempts events) :
    ∃ stop, LoopLedger cfg orderly base start stop (s.groupLoop cfg outcomes groups processed).2.1
      (∃ n, (s.groupLoop cfg outcomes groups processed).1 = .ok n)
      (events ++ s.loopEvents cfg outcomes groups processed) := by
  induction groups generalizing processed s start events orderly with
  | nil =>
    refine ⟨start, hfree, fun _ => le_rfl, fun place => ?_, fun _ place => ?_, ?_⟩
    · exact (hpolled.others place List.not_mem_nil).ge
    · exact hpolled.others place List.not_mem_nil
    · show Ledger cfg _ base start s.attempts (events ++ [])
      rw [List.append_nil]
      exact ⟨h.pending, h.settled, fun horderly => h.terminalized horderly.1,
        fun horderly => h.ordered horderly.1⟩
  | cons entry rest ih =>
    obtain ⟨place, messages⟩ := entry
    have hmem : (place, messages) ∈ (place, messages) :: rest := List.mem_cons_self
    have hmessages : ∀ m ∈ sortedAsc (·.offset) messages, m.place = place := fun m hm =>
      hpolled.places _ hmem m ((perm_sortedAsc _ messages).mem_iff.mp hm)
    have hlength : (sortedAsc (·.offset) messages).length = messages.length :=
      (perm_sortedAsc _ messages).length_eq
    have hnodup := hpolled.nodup
    rw [List.map_cons, List.nodup_cons] at hnodup
    obtain ⟨stop, hgroup⟩ : ∃ stop, GroupLedger cfg orderly base start place
        (sortedAsc (·.offset) messages).length
        (s.dispatchGroup cfg outcomes (sortedAsc (·.offset) messages) processed none)
        (events ++ s.groupEvents cfg outcomes (sortedAsc (·.offset) messages) processed) stop :=
      h.group processed none hmessages (by rw [hlength]; exact hpolled.offsets _ hmem)
    obtain ⟨front, back, hsplit, hspec⟩ := dispatchGroup_spec cfg outcomes
      (sortedAsc (·.offset) messages) processed none s
    unfold Runtime.groupLoop Runtime.loopEvents
    dsimp only
    generalize hrun : s.dispatchGroup cfg outcomes (sortedAsc (·.offset) messages) processed none
      = run at hgroup hspec
    rw [hlength] at hgroup
    have hfree' : ChaosFree run.state := by
      refine ⟨hspec.grows.placed hfree.placed, ?_, ?_⟩
      · rw [hspec.transport]
        exact hfree.mode
      · rw [hspec.transport]
        exact hfree.pending
    have hposition : ∀ other, run.state.position other = s.position other := fun other =>
      (kept_of_grows hspec.grows hspec.transport other).position
    have hplace : s.position place = start place + messages.length := hpolled.position _ hmem
    have hstart := hgroup.start_le
    have hstop := hgroup.stop_le
    -- the other places are polled already, but not dispatched
    have hothers : ∀ other, other ≠ place → start other ≤ s.position other := by
      intro other hother
      by_cases hin : other ∈ rest.map Prod.fst
      · obtain ⟨entry, hentry, rfl⟩ := List.mem_map.mp hin
        rw [hpolled.position entry (List.mem_cons_of_mem _ hentry)]
        omega
      · rw [hpolled.others other (by simp [hin, hother])]
    -- unless the group raises, the loop goes on from the settled place
    have hreturns : (∀ e, run.ending ≠ .raised e) → ∃ stop', LoopLedger cfg orderly base start stop'
        ((settle run).groupLoop cfg outcomes rest run.processed).2.1
        (∃ n, ((settle run).groupLoop cfg outcomes rest run.processed).1 = .ok n)
        (events ++ (s.groupEvents cfg outcomes (sortedAsc (·.offset) messages) processed ++
          (settle run).loopEvents cfg outcomes rest run.processed)) := by
      intro hends
      have hsettle : SettleSpec place run := by
        refine settleSpec hfree' fun m hm => ?_
        have hm : m ∈ sortedAsc (·.offset) messages := by
          rw [hsplit, List.mem_append]
          rcases hm with hm | hm
          · rw [hspec.last, Option.or_none] at hm
            exact Or.inl (List.mem_of_getLast? hm)
          · exact Or.inr (List.mem_of_head? (hspec.redeliver m hm))
        refine ⟨hmessages m hm, ?_⟩
        rw [hspec.transport]
        exact hpolled.known _ hmem (List.ne_nil_of_mem ((perm_sortedAsc _ messages).mem_iff.mp hm))
      have hat : (settle run).position place = stop := by
        cases hending : run.ending with
        | raised e => exact absurd hending (hends e)
        | finished => rw [hsettle.finished hending, hposition, hplace, hgroup.finished hending]
        | redeliver m =>
          rw [hsettle.redeliver m hending, hposition, hplace, (hgroup.redeliver m hending).2]
          exact min_eq_right hstop
      have hne : ∀ entry ∈ rest, entry.1 ≠ place := by
        intro entry hentry hsame
        exact hnodup.1 (List.mem_map.mpr ⟨entry, hentry, hsame⟩)
      have hpolled' : Polled (Function.update start place stop) (settle run) rest := by
        refine ⟨hnodup.2, fun entry hentry => ?_, fun entry hentry => ?_, fun entry hentry => ?_,
          fun entry hentry => ?_, fun other hother => ?_⟩
        · exact hpolled.places entry (List.mem_cons_of_mem _ hentry)
        · rw [Function.update_of_ne (hne entry hentry)]
          exact hpolled.offsets entry (List.mem_cons_of_mem _ hentry)
        · rw [hsettle.others entry.1 (hne entry hentry), hposition,
            Function.update_of_ne (hne entry hentry)]
          exact hpolled.position entry (List.mem_cons_of_mem _ hentry)
        · rw [hsettle.known entry.1 (hne entry hentry), hspec.transport]
          exact hpolled.known entry (List.mem_cons_of_mem _ hentry)
        · by_cases hsame : other = place
          · rw [hsame, Function.update_self, hat]
          · rw [hsettle.others other hsame, hposition, Function.update_of_ne hsame]
            exact hpolled.others other (by simp [hother, hsame])
      have hledger : Ledger cfg orderly base (Function.update start place stop)
          (settle run).attempts
          (events ++ s.groupEvents cfg outcomes (sortedAsc (·.offset) messages) processed) := by
        rw [settle_attempts]
        exact ⟨hgroup.ledger.pending, hgroup.ledger.settled,
          fun horderly => hgroup.ledger.terminalized ⟨horderly, hends⟩,
          fun horderly => hgroup.ledger.ordered ⟨horderly, hends⟩⟩
      obtain ⟨stop', hloop⟩ := ih run.processed hsettle.chaosFree hpolled' hledger
      rw [List.append_assoc] at hloop
      refine ⟨stop', hloop.chaosFree, fun other => (?_ : start other ≤ _).trans
        (hloop.start_le other), hloop.stop_le, hloop.returned, hloop.ledger⟩
      by_cases hother : other = place
      · rw [hother, Function.update_self]
        exact hstart
      · rw [Function.update_of_ne hother]
    cases hending : run.ending with
    | raised e =>
      refine ⟨Function.update start place stop, hfree', fun other => ?_, fun other => ?_,
        (by rintro ⟨n, hn⟩; cases hn), ?_⟩
      · by_cases hother : other = place
        · rw [hother, Function.update_self]
          exact hstart
        · rw [Function.update_of_ne hother]
      · show _ ≤ run.state.position other
        rw [hposition]
        by_cases hother : other = place
        · rw [hother, Function.update_self, hplace]
          exact hstop
        · rw [Function.update_of_ne hother]
          exact hothers other hother
      · rw [List.append_nil]
        have hnot : ¬ ∃ n, (.error e : Except DispatchError ℕ) = .ok n := by
          rintro ⟨n, hn⟩
          cases hn
        exact ⟨hgroup.ledger.pending, hgroup.ledger.settled, fun h => absurd h.2 hnot,
          fun h => absurd h.2 hnot⟩
    | finished => exact hreturns (by simp [hending])
    | redeliver m => exact hreturns (by simp [hending])

structure CycleLedger (cfg : Config) (orderly : Prop) (base : TopicPartition → ℕ) (s s' : Runtime)
    (returns : Prop) (events : List Event) : Prop where
  chaosFree : ChaosFree s'
  position_le : ∀ place, s.position place ≤ s'.position place
  ledger : Ledger cfg (orderly ∧ returns) base s'.position s'.attempts events

/-- The ledger over a cycle: what is polled is dispatched and settled in order. -/
theorem Ledger.cycle (outcomes : ℕ → Outcome) (hfree : ChaosFree s)
    (h : Ledger cfg orderly base s.position s.attempts events) :
    CycleLedger cfg orderly base s (s.runOnce cfg outcomes).2.1
      (∃ n, (s.runOnce cfg outcomes).1 = .ok n) (events ++ s.cycleEvents cfg outcomes) := by
  unfold Runtime.runOnce Runtime.cycleEvents
  cases hpoll : s.transport.poll s.broker cfg.maxMessages with
  | error e =>
    refine ⟨hfree, fun _ => le_rfl, ?_⟩
    rw [List.append_nil]
    exact ⟨h.pending, h.settled, fun ⟨_, n, hn⟩ => (nomatch hn), fun ⟨_, n, hn⟩ => (nomatch hn)⟩
  | ok polled =>
    obtain ⟨batch, t'⟩ := polled
    have hsame := (freshBatch_of_poll hfree.placed hfree.pending hpoll).same
    have hfree' : ChaosFree { s with transport := t' } := by
      refine ⟨hfree.placed, ?_, ?_⟩
      · show t'.chaosDuplicate = false
        rw [hsame]
        exact hfree.mode
      · show t'.chaosPending = []
        rw [hsame]
        exact hfree.pending
    obtain ⟨stop, hloop⟩ : ∃ stop, LoopLedger cfg orderly base s.position stop
        (Runtime.groupLoop cfg outcomes (groups batch) 0 { s with transport := t' }).2.1
        (∃ n, (Runtime.groupLoop cfg outcomes (groups batch) 0 { s with transport := t' }).1
          = .ok n)
        (events ++ Runtime.loopEvents cfg outcomes (groups batch) 0 { s with transport := t' }) :=
      Ledger.loop 0 hfree' (polled_of_poll hfree hpoll) h
    refine ⟨hloop.chaosFree, fun place => (hloop.start_le place).trans (hloop.stop_le place), ?_⟩
    by_cases hreturns : ∃ n, (Runtime.groupLoop cfg outcomes (groups batch) 0
        { s with transport := t' }).1 = .ok n
    · -- a cycle that returns leaves the fetch positions where it has stopped
      have hstop : stop = (Runtime.groupLoop cfg outcomes (groups batch) 0
          { s with transport := t' }).2.1.position :=
        funext fun place => (hloop.returned hreturns place).symm
      rw [← hstop]
      exact hloop.ledger
    · have hlater := hloop.ledger.later hloop.stop_le
      exact ⟨hlater.pending, hlater.settled, fun horderly => absurd horderly.2 hreturns,
        fun horderly => absurd horderly.2 hreturns⟩

/-! ### What the events of a cycle are about -/

variable {e : Event}

theorem mem_groupEvents {messages : List ModelTransportMessage} {processed : ℕ}
    (he : e ∈ s.groupEvents cfg outcomes messages processed) : e.message ∈ messages := by
  induction messages generalizing processed s with
  | nil => exact absurd he List.not_mem_nil
  | cons m rest ih =>
    unfold Runtime.groupEvents at he
    cases hdispatched : s.dispatchOne cfg (outcomes processed) m with
    | mk disposition s' =>
      rw [hdispatched] at he
      cases disposition with
      | commit =>
        rcases List.mem_cons.mp he with rfl | he
        · exact List.mem_cons_self
        · exact List.mem_cons_of_mem m (ih he)
      | redeliver =>
        rw [List.mem_singleton.mp he]
        exact List.mem_cons_self
      | dlq =>
        dsimp only at he
        cases hsent : s'.sendToDlq cfg (outcomes processed) m with
        | error e' =>
          rw [hsent] at he
          rw [List.mem_singleton.mp he]
          exact List.mem_cons_self
        | ok sent =>
          rw [hsent] at he
          rcases List.mem_cons.mp he with rfl | he
          · exact List.mem_cons_self
          · rcases List.mem_cons.mp he with rfl | he
            · exact List.mem_cons_self
            · exact List.mem_cons_of_mem m (ih he)

theorem mem_loopEvents {processed : ℕ} (he : e ∈ s.loopEvents cfg outcomes groups processed) :
    ∃ entry ∈ groups, e.message ∈ entry.2 := by
  induction groups generalizing processed s with
  | nil => exact absurd he List.not_mem_nil
  | cons entry rest ih =>
    unfold Runtime.loopEvents at he
    rcases List.mem_append.mp he with he | he
    · have hm := mem_groupEvents he
      exact ⟨entry, List.mem_cons_self, (perm_sortedAsc _ entry.2).mem_iff.mp hm⟩
    · split at he
      · exact absurd he List.not_mem_nil
      · obtain ⟨entry', hentry', hm⟩ := ih he
        exact ⟨entry', List.mem_cons_of_mem _ hentry', hm⟩

/-- A cycle is about records that have not been fetched, of assigned partitions. -/
theorem mem_cycleEvents (hfree : ChaosFree s) (he : e ∈ s.cycleEvents cfg outcomes) :
    e.message.place ∈ s.transport.places s.broker ∧
      s.position e.message.place ≤ e.message.offset ∧
      e.message.offset < (s.broker.logs e.message.place).length := by
  unfold Runtime.cycleEvents at he
  cases hpoll : s.transport.poll s.broker cfg.maxMessages with
  | error e' =>
    rw [hpoll] at he
    exact absurd he List.not_mem_nil
  | ok polled =>
    obtain ⟨batch, t'⟩ := polled
    rw [hpoll] at he
    obtain ⟨entry, hentry, hm⟩ := mem_loopEvents he
    rw [(groups_spec batch).2.1 entry hentry, List.mem_filter] at hm
    have hfresh := freshBatch_of_poll hfree.placed hfree.pending hpoll
    obtain ⟨hrecord, hle, -⟩ := hfresh.record _ hm.1
    exact ⟨hfresh.assigned _ hm.1, hle, (List.getElem?_eq_some_iff.mp hrecord).1⟩

/-- A group counts as processed what it dispatches. -/
theorem processed_dispatchGroup (outcomes : ℕ → Outcome) (messages : List ModelTransportMessage)
    (processed : ℕ) (last : Option ModelTransportMessage) (s : Runtime) :
    (s.dispatchGroup cfg outcomes messages processed last).processed
      = processed + (s.groupEvents cfg outcomes messages processed).countP Event.isDispatch := by
  induction messages generalizing processed last s with
  | nil => rfl
  | cons m rest ih =>
    have hdispatch : ∀ disposition (es : List Event), (Event.dispatched m disposition ::
        es).countP Event.isDispatch = es.countP Event.isDispatch + 1 := fun _ _ =>
      List.countP_cons_of_pos rfl
    have hdeadLetter : ∀ es : List Event, (Event.deadLettered m :: es).countP Event.isDispatch
        = es.countP Event.isDispatch := fun _ => List.countP_cons_of_neg nofun
    unfold Runtime.dispatchGroup Runtime.groupEvents
    cases hdispatched : s.dispatchOne cfg (outcomes processed) m with
    | mk disposition s' =>
      cases disposition with
      | commit =>
        dsimp only
        rw [ih, hdispatch]
        omega
      | redeliver =>
        dsimp only
        rw [hdispatch]
        rfl
      | dlq =>
        dsimp only
        cases s'.sendToDlq cfg (outcomes processed) m with
        | error e =>
          dsimp only
          rw [hdispatch]
          rfl
        | ok sent =>
          dsimp only
          rw [ih, hdispatch, hdeadLetter]
          omega

theorem processed_groupLoop (outcomes : ℕ → Outcome)
    (groups : List (TopicPartition × List ModelTransportMessage)) (processed : ℕ) (s : Runtime)
    {n : ℕ} (h : (s.groupLoop cfg outcomes groups processed).1 = .ok n) :
    n = processed + (s.loopEvents cfg outcomes groups processed).countP Event.isDispatch := by
  induction groups generalizing processed s with
  | nil => exact (Except.ok.inj h).symm
  | cons entry rest ih =>
    have hgroup := @processed_dispatchGroup cfg outcomes (sortedAsc (·.offset) entry.2) processed
      none s
    unfold Runtime.groupLoop at h
    unfold Runtime.loopEvents
    dsimp only at h ⊢
    rw [List.countP_append]
    cases hending : (s.dispatchGroup cfg outcomes (sortedAsc (·.offset) entry.2) processed
      none).ending with
    | raised e =>
      rw [hending] at h
      cases h
    | finished =>
      rw [hending] at h
      have hrest := ih _ _ h
      dsimp only at hrest ⊢
      omega
    | redeliver m =>
      rw [hending] at h
      have hrest := ih _ _ h
      dsimp only at hrest ⊢
      omega

/-- A cycle returns the number of messages that it dispatches. -/
theorem processed_runOnce {n : ℕ} (h : (s.runOnce cfg outcomes).1 = .ok n) :
    n = (s.cycleEvents cfg outcomes).countP Event.isDispatch := by
  unfold Runtime.runOnce at h
  unfold Runtime.cycleEvents
  cases hpoll : s.transport.poll s.broker cfg.maxMessages with
  | error e =>
    rw [hpoll] at h
    exact nomatch h
  | ok polled =>
    rw [hpoll] at h
    have hloop := processed_groupLoop outcomes _ _ _ h
    rwa [Nat.zero_add] at hloop

end

end OmnibaseCore.Dispatch
