import OmnibaseCore.Replay.AuditTrail

/-!
# Queries of the audit trail

* `exists_getSummary_iff`: when there is a summary;
* `trailLaw_iff`: queries and counts are those of the entries if and only if no entry has been
  evicted since the trail was cleared.
-/

namespace OmnibaseCore.Replay

open ServiceAuditTrail

variable {s : ServiceAuditTrail} {log : List ModelAuditTrailEntry} {sessionId : UUID}
  {maxEntries : Option ℤ}

/-! ## What a trail holds -/

/-- What has been recorded since the last `clear`, by a list of calls. -/
def recorded (sessionId : UUID) : List TrailCall → List ModelAuditTrailEntry :=
  List.foldl (fun log call =>
    match call with
    | .clear => []
    | .record id decision context =>
      log ++ [{ id, sessionId, sequenceNumber := log.length, decision
                context := context.getD [] }]) []

/-- The trail keeps the last entries of `log`, and its indices keep all of them. -/
structure Holds (s : ServiceAuditTrail) (sessionId : UUID) (maxEntries : Option ℤ)
    (log : List ModelAuditTrailEntry) : Prop where
  session : s.sessionId = sessionId
  bound : s.maxEntries = maxEntries
  entries : s.entries = keepLast maxEntries log
  counter : s.sequenceCounter = log.length
  byOutcome : s.indexByOutcome = groupBy (·.decision.decision.value) log
  bySource : s.indexBySource = groupBy (·.decision.source) log
  numbered : log.map (·.sequenceNumber) = List.range log.length

theorem holds_nil (hsession : s.sessionId = sessionId) (hbound : s.maxEntries = maxEntries)
    (hentries : s.entries = []) (hcounter : s.sequenceCounter = 0) (houtcome : s.indexByOutcome = [])
    (hsource : s.indexBySource = []) : Holds s sessionId maxEntries [] where
  session := hsession
  bound := hbound
  entries := by cases maxEntries <;> simp [keepLast, hentries]
  counter := hcounter
  byOutcome := houtcome
  bySource := hsource
  numbered := rfl

/-- One more entry. -/
theorem Holds.record (h : Holds s sessionId maxEntries log) (id : UUID)
    (decision : ModelEnforcementDecision) (context : Option JsonDict) :
    Holds (s.record id decision context) sessionId maxEntries
      (log ++ [{ id, sessionId, sequenceNumber := log.length, decision
                 context := context.getD [] }]) where
  session := h.session
  bound := h.bound
  entries := by
    unfold ServiceAuditTrail.record
    dsimp only
    rw [h.bound, h.entries, h.session, h.counter]
    cases maxEntries with
    | none => rfl
    | some maxEntries => exact (keepLast_concat maxEntries log _).symm
  counter := by
    simp [ServiceAuditTrail.record, h.counter]
  byOutcome := by
    simp [ServiceAuditTrail.record, h.byOutcome, h.session, h.counter]
  bySource := by
    simp [ServiceAuditTrail.record, h.bySource, h.session, h.counter]
  numbered := by
    simp [h.numbered, List.range_succ]

/-- The trail after some calls. -/
theorem trailAfter_holds (sessionId : UUID) (maxEntries : Option ℤ) (calls : List TrailCall) :
    Holds (trailAfter sessionId maxEntries calls) sessionId maxEntries
      (recorded sessionId calls) := by
  induction calls using List.reverseRecOn with
  | nil => exact holds_nil rfl rfl rfl rfl rfl rfl
  | append_singleton calls call ih =>
    unfold trailAfter recorded at *
    rw [List.foldl_append, List.foldl_append]
    cases call with
    | clear => exact holds_nil ih.session ih.bound rfl rfl rfl rfl
    | record id decision context => exact ih.record id decision context

/-! ## Queries -/

def Asked (outcome : Option String) (source : Option EnumNonDeterministicSource)
    (e : ModelAuditTrailEntry) : Prop :=
  (∀ o ∈ outcome, e.decision.decision.value = o) ∧ ∀ c ∈ source, e.decision.source = some c

instance (outcome : Option String) (source : Option EnumNonDeterministicSource) :
    DecidablePred (Asked outcome source) :=
  fun _ => inferInstanceAs (Decidable (_ ∧ _))

def scan (entries : List ModelAuditTrailEntry) (outcome : Option String)
    (source : Option EnumNonDeterministicSource) (limit : Option ℤ) :
    List ModelAuditTrailEntry :=
  limitTo limit (entries.filter (Asked outcome source))

/-- What a query reads: the whole log where it has a filter, else the entries. -/
theorem getEntries_eq (h : Holds s sessionId maxEntries log) (outcome : Option String)
    (source : Option EnumNonDeterministicSource) (limit : Option ℤ) :
    s.getEntries outcome source limit =
      scan (if outcome = none ∧ source = none then s.entries else log) outcome source limit := by
  have houtcome : ∀ o, getList s.indexByOutcome o
      = log.filter (·.decision.decision.value = o) := by
    intro o
    rw [h.byOutcome]
    exact (groups_groupBy _ log).getList_eq o
  have hsource : ∀ c, getList s.indexBySource c = log.filter (·.decision.source = c) := by
    intro c
    rw [h.bySource]
    exact (groups_groupBy _ log).getList_eq c
  unfold getEntries scan matching
  congr 1
  cases outcome with
  | none =>
    cases source with
    | none => simp [Asked]
    | some c => simp [Asked, hsource]
  | some o =>
    cases source with
    | none => simp [Asked, houtcome]
    | some c =>
      simp only [houtcome, hsource, List.filter_filter]
      split_ifs with hshort hfilter <;> simp [Asked, Bool.and_comm] at *

/-! ## The summary -/

theorem sourceKey_injective : Function.Injective sourceKey := by
  intro c c' h
  cases c with
  | none =>
    cases c' with
    | none => rfl
    | some c' => cases c' <;> exact absurd h (by decide)
  | some c =>
    cases c' with
    | none => cases c <;> exact absurd h (by decide)
    | some c' => cases c <;> cases c' <;> first | rfl | exact absurd h (by decide)

/-- The counts of a summary. -/
theorem getSummary_counts (h : Holds s sessionId maxEntries log) {summary : ModelAuditTrailSummary}
    (hsummary : s.getSummary = .ok summary) :
    summary.totalDecisions = s.entries.length ∧
      ((s.entries = [] ∧ summary.decisionsByOutcome = [] ∧ summary.decisionsBySource = []) ∨
        (summary.decisionsByOutcome.map Prod.snd).sum = log.length ∧
          (summary.decisionsBySource.map Prod.snd).sum = log.length) := by
  unfold ServiceAuditTrail.getSummary at hsummary
  cases hentries : s.entries with
  | nil =>
    rw [hentries] at hsummary
    cases hsummary
    exact ⟨rfl, Or.inl ⟨rfl, rfl, rfl⟩⟩
  | cons first rest =>
    rw [hentries] at hsummary
    obtain ⟨found, -, hok⟩ := bind_eq_ok hsummary
    cases hok
    refine ⟨rfl, Or.inr ⟨?_, ?_⟩⟩
    · have hkeys : (s.indexByOutcome.map Prod.fst).Nodup := by
        rw [h.byOutcome]
        exact (groups_groupBy _ log).nodup
      show ((s.indexByOutcome.foldl _ []).map Prod.snd).sum = _
      rw [foldl_dictSet_of_nodup Prod.fst (·.2.length) hkeys, List.map_map, h.byOutcome]
      exact sum_length_groupBy _ log
    · have hkeys : (s.indexBySource.map fun group => sourceKey group.1).Nodup := by
        rw [h.bySource]
        have hnodup := (groups_groupBy (·.decision.source) log).nodup.map sourceKey_injective
        rwa [List.map_map] at hnodup
      show ((s.indexBySource.foldl _ []).map Prod.snd).sum = _
      rw [foldl_dictSet_of_nodup _ (·.2.length) hkeys, List.map_map, h.bySource]
      exact sum_length_groupBy _ log

theorem exists_aggregate_iff {found : Aggregate} {entry : ModelAuditTrailEntry}
    (hkind : found.lastDecisionAt.instant.isSome = found.firstDecisionAt.instant.isSome) :
    (∃ found', aggregate found entry = .ok found') ↔
      entry.decision.timestamp.instant.isSome = found.firstDecisionAt.instant.isSome := by
  rw [← exists_before_iff]
  constructor
  · intro ⟨found', h⟩
    obtain ⟨earlier, hearlier, -⟩ := bind_eq_ok h
    exact ⟨earlier, hearlier⟩
  · intro ⟨earlier, hearlier⟩
    have hlater := exists_before_iff.mpr
      (hkind.trans (exists_before_iff.mp ⟨earlier, hearlier⟩).symm)
    obtain ⟨later, hlater⟩ := hlater
    unfold aggregate
    dsimp only
    rw [hearlier]
    show ∃ found', (before found.lastDecisionAt entry.decision.timestamp >>= _) = .ok found'
    rw [hlater]
    exact ⟨_, rfl⟩

theorem aggregate_kind {found found' : Aggregate} {entry : ModelAuditTrailEntry}
    (hkind : found.lastDecisionAt.instant.isSome = found.firstDecisionAt.instant.isSome)
    (h : aggregate found entry = .ok found') :
    found'.firstDecisionAt.instant.isSome = found.firstDecisionAt.instant.isSome ∧
      found'.lastDecisionAt.instant.isSome = found.firstDecisionAt.instant.isSome := by
  have hentry := (exists_aggregate_iff hkind).mp ⟨found', h⟩
  obtain ⟨earlier, -, h⟩ := bind_eq_ok h
  obtain ⟨later, -, h⟩ := bind_eq_ok h
  cases h
  constructor
  · cases earlier
    · rfl
    · exact hentry
  · cases later
    · exact hkind
    · exact hentry

theorem exists_foldlM_aggregate_iff {entries : List ModelAuditTrailEntry} {found : Aggregate}
    (hkind : found.lastDecisionAt.instant.isSome = found.firstDecisionAt.instant.isSome) :
    (∃ found', entries.foldlM aggregate found = .ok found') ↔
      ∀ e ∈ entries,
        e.decision.timestamp.instant.isSome = found.firstDecisionAt.instant.isSome := by
  induction entries generalizing found with
  | nil => exact ⟨fun _ _ h => (nomatch h), fun _ => ⟨found, rfl⟩⟩
  | cons entry rest ih =>
    rw [List.foldlM_cons, List.forall_mem_cons, ← exists_aggregate_iff hkind]
    constructor
    · intro ⟨found', h⟩
      obtain ⟨next, hnext, hrest⟩ := bind_eq_ok h
      obtain ⟨hfirst, hlast⟩ := aggregate_kind hkind hnext
      have hall := (ih (hlast.trans hfirst.symm)).mp ⟨found', hrest⟩
      rw [hfirst] at hall
      exact ⟨⟨next, hnext⟩, hall⟩
    · intro ⟨⟨next, hnext⟩, hall⟩
      obtain ⟨hfirst, hlast⟩ := aggregate_kind hkind hnext
      rw [← hfirst] at hall
      rw [hnext]
      exact (ih (hlast.trans hfirst.symm)).mpr hall

/-- A summary is made exactly if all dates have a time zone or none has. -/
theorem exists_getSummary_iff :
    (∃ summary, s.getSummary = .ok summary) ↔
      ∀ e ∈ s.entries, ∀ e' ∈ s.entries,
        e.decision.timestamp.instant.isSome = e'.decision.timestamp.instant.isSome := by
  unfold getSummary
  cases hentries : s.entries with
  | nil => exact ⟨fun _ _ h => (nomatch h), fun _ => ⟨_, rfl⟩⟩
  | cons first rest =>
    dsimp only
    have hloop : (∃ found, (first :: rest).foldlM aggregate
        { firstDecisionAt := first.decision.timestamp
          lastDecisionAt := first.decision.timestamp } = .ok found) ↔
          ∀ e ∈ first :: rest, e.decision.timestamp.instant.isSome
            = first.decision.timestamp.instant.isSome :=
      exists_foldlM_aggregate_iff rfl
    constructor
    · intro ⟨summary, h⟩ e he e' he'
      obtain ⟨found, hfound, -⟩ := bind_eq_ok h
      have hall := hloop.mp ⟨found, hfound⟩
      exact (hall e he).trans (hall e' he').symm
    · intro hall
      obtain ⟨found, hfound⟩ := hloop.mpr fun e he => hall e he first List.mem_cons_self
      rw [hfound]
      exact ⟨_, rfl⟩

/-! ## The law -/

/-- The trail retains the last entries of `log`, in order, its queries are scans of what it
retains, and the counts of its summary add up to the number of entries that it retains. -/
structure TrailLaw (s : ServiceAuditTrail) (maxEntries : Option ℤ)
    (log : List ModelAuditTrailEntry) : Prop where
  retained : s.entries = keepLast maxEntries log
  ordered : s.entries.Pairwise (·.sequenceNumber < ·.sequenceNumber)
  queries : ∀ outcome source limit,
    s.getEntries outcome source limit = scan s.entries outcome source limit
  total : ∀ summary, s.getSummary = .ok summary → summary.totalDecisions = s.entries.length
  outcomes : ∀ summary, s.getSummary = .ok summary →
    (summary.decisionsByOutcome.map Prod.snd).sum = summary.totalDecisions
  sources : ∀ summary, s.getSummary = .ok summary →
    (summary.decisionsBySource.map Prod.snd).sum = summary.totalDecisions

theorem Holds.ordered (h : Holds s sessionId maxEntries log) :
    s.entries.Pairwise (·.sequenceNumber < ·.sequenceNumber) := by
  have hlog : log.Pairwise (·.sequenceNumber < ·.sequenceNumber) := by
    have hrange : (List.range log.length).Pairwise (· < ·) := List.pairwise_lt_range
    rw [← h.numbered, List.pairwise_map] at hrange
    exact hrange
  rw [← cutOff_append_keepLast maxEntries log, List.pairwise_append] at hlog
  rw [h.entries]
  exact hlog.2.1

/-- An entry that has been evicted is still found by its outcome. -/
theorem Holds.stale (h : Holds s sessionId maxEntries log) {e : ModelAuditTrailEntry}
    (he : e ∈ cutOff maxEntries log) :
    s.getEntries (some e.decision.decision.value) none none
      ≠ scan s.entries (some e.decision.decision.value) none none := by
  intro hsame
  rw [getEntries_eq h, if_neg (by simp), h.entries] at hsame
  have hlength := congrArg List.length hsame
  simp only [scan, limitTo] at hlength
  nth_rewrite 1 [← cutOff_append_keepLast maxEntries log] at hlength
  rw [List.filter_append, List.length_append] at hlength
  have hfound : e ∈ (cutOff maxEntries log).filter
      (Asked (some e.decision.decision.value) none) := by
    simp [Asked, he]
  have hpos := List.length_pos_of_mem hfound
  omega

/-- The law holds after some calls if and only if no entry has been evicted since the last
`clear`. -/
theorem trailLaw_iff (sessionId : UUID) (maxEntries : Option ℤ) (calls : List TrailCall) :
    TrailLaw (trailAfter sessionId maxEntries calls) maxEntries (recorded sessionId calls) ↔
      ∀ n, maxEntries = some n → (recorded sessionId calls).length ≤ n.toNat := by
  have h := trailAfter_holds sessionId maxEntries calls
  rw [← cutOff_eq_nil_iff]
  constructor
  · intro hlaw
    by_contra hcut
    obtain ⟨e, he⟩ := List.exists_mem_of_ne_nil _ hcut
    exact h.stale he (hlaw.queries _ _ _)
  · intro hcut
    have hall : (trailAfter sessionId maxEntries calls).entries = recorded sessionId calls := by
      have hsplit := cutOff_append_keepLast maxEntries (recorded sessionId calls)
      rw [hcut, List.nil_append] at hsplit
      rw [h.entries, hsplit]
    have hcounts : ∀ summary,
        (trailAfter sessionId maxEntries calls).getSummary = .ok summary →
          (summary.decisionsByOutcome.map Prod.snd).sum = summary.totalDecisions ∧
            (summary.decisionsBySource.map Prod.snd).sum = summary.totalDecisions := by
      intro summary hsummary
      obtain ⟨htotal, ⟨hnil, houtcomes, hsources⟩ | ⟨houtcomes, hsources⟩⟩ :=
        getSummary_counts h hsummary
      · rw [htotal, hnil, houtcomes, hsources]
        exact ⟨rfl, rfl⟩
      · rw [htotal, hall]
        exact ⟨houtcomes, hsources⟩
    exact {
      retained := h.entries
      ordered := h.ordered
      queries := fun outcome source limit => by
        rw [getEntries_eq h, hall, ite_self]
      total := fun summary hsummary => (getSummary_counts h hsummary).1
      outcomes := fun summary hsummary => (hcounts summary hsummary).1
      sources := fun summary hsummary => (hcounts summary hsummary).2 }

def boundedCalls : List TrailCall :=
  [.record ⟨1⟩
      { effectType := "time.now", source := some .time, mode := .strict, decision := .blocked
        timestamp := ⟨0, some 0⟩ } none,
    .record ⟨2⟩
      { effectType := "random.randint", source := some .random, mode := .strict
        decision := .allowed, timestamp := ⟨1, some 0⟩ } none]

/-- The decision that was evicted is found, and it is counted. -/
theorem boundedTrail_stale :
    let s := trailAfter ⟨0⟩ (some 1) boundedCalls
    s.entries.length = 1 ∧ (s.getEntries (some "blocked") none none).length = 1 ∧
      (scan s.entries (some "blocked") none none).length = 0 ∧
      ∃ summary, s.getSummary = .ok summary ∧ summary.totalDecisions = 1 ∧
        (summary.decisionsByOutcome.map Prod.snd).sum = 2 := by
  refine ⟨by decide, by decide, by decide, _, rfl, by decide, by decide⟩

end OmnibaseCore.Replay
