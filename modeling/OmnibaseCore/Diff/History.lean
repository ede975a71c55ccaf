import OmnibaseCore.Diff.Model
import OmnibaseCore.Python.PyDict
import OmnibaseCore.Replay.AuditTrail

/-!
# The history of diffs

`ServiceDiffHistory` over a `ServiceDiffInMemoryStore`. What it looks up it asks for with a page of
1000 diffs, so that it covers a store if and only if no more than these match
(`history_covers_iff`). Dates with and without a time zone cannot be compared.
-/

namespace OmnibaseCore.Diff

open Tiered (Datetime)
open Replay.ServiceAuditTrail (before exists_before_iff)

/-! ## Queries -/

/-- `ModelContractDiff`, with its identifier and its time. -/
structure TimedDiff extends ModelContractDiff where
  diffId : UUID
  computedAt : Datetime

def ModelContractDiff.totalChanges (d : ModelContractDiff) : ℕ :=
  d.fieldDiffs.countP (fun fd => fd.changeType ≠ .unchanged) +
    (d.listDiffs.map fun ld => ld.addedItems.length + ld.removedItems.length +
      ld.modifiedItems.length + ld.movedItems.length).sum

def ModelContractDiff.changeSummary (d : ModelContractDiff) (type : EnumContractDiffChangeType) :
    ℕ :=
  d.fieldDiffs.countP (fun fd => fd.changeType = type) +
    (d.listDiffs.map fun ld =>
      match type with
      | .added => ld.addedItems.length
      | .removed => ld.removedItems.length
      | .modified => ld.modifiedItems.length
      | .moved => ld.movedItems.length
      | .unchanged => ld.unchangedCount).sum

/-- The types of change that `matches_diff` finds in a list. -/
def ModelContractListDiff.changeTypes (ld : ModelContractListDiff) :
    List EnumContractDiffChangeType :=
  [(ld.addedItems, .added), (ld.removedItems, .removed), (ld.modifiedItems, .modified),
    (ld.movedItems, .moved)].filterMap fun e => if e.1.isEmpty then none else some e.2

/-- `ModelDiffQuery`. Its validators ask that the bounds are in order and that `change_types` is
not empty. -/
structure ModelDiffQuery where
  beforeContractName : Option String := none
  afterContractName : Option String := none
  contractName : Option String := none
  computedAfter : Option Datetime := none
  computedBefore : Option Datetime := none
  changeTypes : Option (List EnumContractDiffChangeType) := none
  hasChanges : Option Bool := none
  limit : ℕ := 100
  offset : ℕ := 0
  limit_bounds : 1 ≤ limit ∧ limit ≤ 1000 := by decide

def ModelDiffQuery.matchesNames (q : ModelDiffQuery) (d : ModelContractDiff) : Bool :=
  q.beforeContractName.all (· = d.beforeContractName) &&
    q.afterContractName.all (· = d.afterContractName) &&
      q.contractName.all fun name => name = d.beforeContractName || name = d.afterContractName

def ModelDiffQuery.matchesChanges (q : ModelDiffQuery) (d : ModelContractDiff) : Bool :=
  q.hasChanges.all (· = d.hasChanges) && q.changeTypes.all fun types =>
    (d.fieldDiffs.map (·.changeType) ++ d.listDiffs.flatMap (·.changeTypes)).any (· ∈ types)

def ModelDiffQuery.matchesDiff (q : ModelDiffQuery) (d : TimedDiff) : Except PyException Bool :=
  if !q.matchesNames d.toModelContractDiff then .ok false
  else do
    let early ← q.computedAfter.elim (.ok false) (before d.computedAt)
    if early then return false
    let soon ← q.computedBefore.elim (.ok true) (before d.computedAt)
    return soon && q.matchesChanges d.toModelContractDiff

/-! ## The store -/

/-- `[a for a in l if p(a)]`. -/
def filterPassed {α ε : Type} (p : α → Except ε Bool) : List α → Except ε (List α)
  | [] => .ok []
  | a :: l => do
    let passed ← p a
    let rest ← filterPassed p l
    return if passed then a :: rest else rest

/-- Whether `p(a)` is returned and true. -/
def holds {ε : Type} : Except ε Bool → Bool
  | .ok b => b
  | .error _ => false

/-- `ServiceDiffInMemoryStore`: the diffs by their identifiers. -/
structure ServiceDiffInMemoryStore where
  diffs : PyDict UUID TimedDiff := {}
  keyed : ∀ e ∈ diffs.entries, e.1 = e.2.diffId

/-- Dates that can be compared. -/
def SameKind (d d' : Datetime) : Prop := d.instant.isSome = d'.instant.isSome

instance (d d' : Datetime) : Decidable (SameKind d d') := inferInstanceAs (Decidable (_ = _))

/-- What dates of one kind are compared by. -/
def clock (d : TimedDiff) : ℤ := d.computedAt.instant.getD d.computedAt.reading

/-- `l.sort(key=lambda d: d.computed_at, reverse=True)`. -/
def sortNewest (l : List TimedDiff) : Except PyException (List TimedDiff) :=
  if ∀ d ∈ l, ∀ d' ∈ l, SameKind d.computedAt d'.computedAt then .ok (sortedDesc clock l)
  else .error (.typeError "can't compare offset-naive and offset-aware datetimes")

namespace ServiceDiffInMemoryStore

def values (store : ServiceDiffInMemoryStore) : List TimedDiff :=
  store.diffs.entries.map Prod.snd

def query (store : ServiceDiffInMemoryStore) (q : ModelDiffQuery) :
    Except PyException (List TimedDiff) := do
  let matching ← filterPassed q.matchesDiff store.values
  let sorted ← sortNewest matching
  return (sorted.drop q.offset).take q.limit

def count (store : ServiceDiffInMemoryStore) (q : ModelDiffQuery) : Except PyException ℕ := do
  let matching ← filterPassed q.matchesDiff store.values
  return matching.length

/-- `delete`, of a diff that is stored. -/
def delete (store : ServiceDiffInMemoryStore) (diffId : UUID) : ServiceDiffInMemoryStore where
  diffs := store.diffs.delItem diffId
  keyed e he := store.keyed e (List.mem_of_mem_filter he)

end ServiceDiffInMemoryStore

/-! ## The service -/

/-- The values of `get_change_statistics`. -/
structure ChangeStatistics where
  totalDiffs : ℕ
  totalChanges : ℕ
  added : ℕ
  removed : ℕ
  modified : ℕ
  moved : ℕ

def ChangeStatistics.of (diffs : List TimedDiff) : ChangeStatistics where
  totalDiffs := diffs.length
  totalChanges := (diffs.map (·.totalChanges)).sum
  added := (diffs.map (·.changeSummary .added)).sum
  removed := (diffs.map (·.changeSummary .removed)).sum
  modified := (diffs.map (·.changeSummary .modified)).sum
  moved := (diffs.map (·.changeSummary .moved)).sum

namespace ServiceDiffHistory

variable (store : ServiceDiffInMemoryStore)

/-- `get_diffs_in_range`, given `str` of a date. -/
def getDiffsInRange (str : Datetime → String) (start stop : Datetime)
    (contractName : Option String) : Except PyException (List TimedDiff) := do
  let reversed ← before stop start
  if reversed then
    .error (.modelOnexError {
      errorCode := .validationError
      message := "end (" ++ str stop ++ ") cannot be before start (" ++ str start ++ ")"
      context := [] })
  else store.query {
    contractName
    computedAfter := some start
    computedBefore := some stop
    limit := 1000 }

def getDiffCount (contractName : Option String) (since : Option Datetime) : Except PyException ℕ :=
  store.count { contractName, computedAfter := since }

def getChangeStatistics (contractName : Option String) (since : Option Datetime) :
    Except PyException ChangeStatistics := do
  let diffs ← store.query { contractName, computedAfter := since, limit := 1000 }
  return .of diffs

/-- One turn of the loop of `cleanup_old_diffs`. -/
def deleteOld (found : ServiceDiffInMemoryStore × ℕ) (d : TimedDiff) :
    ServiceDiffInMemoryStore × ℕ :=
  if found.1.diffs.contains d.diffId then (found.1.delete d.diffId, found.2 + 1) else found

/-- `cleanup_old_diffs`, with the cutoff that it determines. -/
def cleanupOldDiffs (cutoff : Datetime) : Except PyException (ServiceDiffInMemoryStore × ℕ) := do
  let oldDiffs ← store.query { computedBefore := some cutoff, limit := 1000 }
  return oldDiffs.foldl deleteOld (store, 0)

end ServiceDiffHistory

/-! ## What a query returns -/

theorem filterPassed_of_forall {α ε : Type} {p : α → Except ε Bool} {l : List α}
    (h : ∀ a ∈ l, ∃ b, p a = .ok b) :
    filterPassed p l = .ok (l.filter fun a => holds (p a)) := by
  induction l with
  | nil => rfl
  | cons a l ih =>
    rw [List.forall_mem_cons] at h
    rcases h.1 with ⟨b, hb⟩
    rw [filterPassed, hb, ih h.2, List.filter_cons, hb]
    cases b <;> rfl

theorem forall_of_filterPassed {α ε : Type} {p : α → Except ε Bool} {l l' : List α}
    (h : filterPassed p l = .ok l') : ∀ a ∈ l, ∃ b, p a = .ok b := by
  induction l generalizing l' with
  | nil => simp
  | cons a l ih =>
    obtain ⟨b, hb, hrest⟩ := bind_eq_ok h
    obtain ⟨rest, hrest, _⟩ := bind_eq_ok hrest
    exact List.forall_mem_cons.mpr ⟨⟨b, hb⟩, ih hrest⟩

/-- The date is earlier than the other one, and can be compared with it. -/
def isBefore (d d' : Datetime) : Bool := holds (before d d')

section
variable {q : ModelDiffQuery} {d : TimedDiff} {store : ServiceDiffInMemoryStore}

def ModelDiffQuery.bounds (q : ModelDiffQuery) : List Datetime :=
  q.computedAfter.toList ++ q.computedBefore.toList

def ModelDiffQuery.asksFor (q : ModelDiffQuery) (d : TimedDiff) : Bool :=
  q.matchesNames d.toModelContractDiff && q.computedAfter.all (!isBefore d.computedAt ·) &&
    q.computedBefore.all (isBefore d.computedAt ·) && q.matchesChanges d.toModelContractDiff

theorem before_of_sameKind {t t' : Datetime} (h : SameKind t t') :
    before t t' = .ok (isBefore t t') := by
  rcases exists_before_iff.mpr h with ⟨b, hb⟩
  rw [isBefore, hb, holds]

def ModelDiffQuery.Reads (q : ModelDiffQuery) (d : TimedDiff) : Prop :=
  q.matchesNames d.toModelContractDiff = true → ∀ t ∈ q.bounds, SameKind d.computedAt t

theorem matchesDiff_of_reads (h : q.Reads d) : q.matchesDiff d = .ok (q.asksFor d) := by
  unfold ModelDiffQuery.matchesDiff ModelDiffQuery.asksFor
  unfold ModelDiffQuery.Reads ModelDiffQuery.bounds at h
  cases hnames : q.matchesNames d.toModelContractDiff with
  | false => rfl
  | true =>
    have hbounds := h hnames
    cases hafter : q.computedAfter with
    | none =>
      cases hbefore : q.computedBefore with
      | none => rfl
      | some t =>
        have ht : SameKind d.computedAt t := hbounds t (by simp [hbefore])
        simp [before_of_sameKind ht, bind, Except.bind, pure, Except.pure]
    | some s =>
      have hs : SameKind d.computedAt s := hbounds s (by simp [hafter])
      cases hbefore : q.computedBefore with
      | none =>
        cases hearly : isBefore d.computedAt s <;>
          simp [before_of_sameKind hs, hearly, bind, Except.bind, pure, Except.pure]
      | some t =>
        have ht : SameKind d.computedAt t := hbounds t (by simp [hbefore])
        cases hearly : isBefore d.computedAt s <;>
          simp [before_of_sameKind hs, before_of_sameKind ht, hearly, bind, Except.bind, pure,
            Except.pure]

theorem reads_of_matchesDiff (hq : ∀ t ∈ q.bounds, ∀ t' ∈ q.bounds, SameKind t t') {b : Bool}
    (h : q.matchesDiff d = .ok b) : q.Reads d := by
  intro hnames t ht
  unfold ModelDiffQuery.matchesDiff at h
  rw [hnames, Bool.not_true, if_neg Bool.false_ne_true] at h
  obtain ⟨early, hearly, h⟩ := bind_eq_ok h
  cases hafter : q.computedAfter with
  | some s =>
    rw [hafter] at hearly
    have hs : SameKind d.computedAt s := exists_before_iff.mp ⟨early, hearly⟩
    exact hs.trans (hq s (by simp [ModelDiffQuery.bounds, hafter]) t ht)
  | none =>
    obtain rfl : false = early := by
      rw [hafter] at hearly
      exact Except.ok.inj hearly
    obtain ⟨soon, hsoon, _⟩ := bind_eq_ok h
    have hbefore : q.computedBefore = some t := by
      simpa [ModelDiffQuery.bounds, hafter] using ht
    rw [hbefore] at hsoon
    exact exists_before_iff.mp ⟨soon, hsoon⟩

def ServiceDiffInMemoryStore.matching (store : ServiceDiffInMemoryStore) (q : ModelDiffQuery) :
    List TimedDiff :=
  store.values.filter q.asksFor

/-- The dates that a query compares can be compared. -/
def Comparable (store : ServiceDiffInMemoryStore) (q : ModelDiffQuery) : Prop :=
  (∀ d ∈ store.values, q.Reads d) ∧
    ∀ d ∈ store.matching q, ∀ d' ∈ store.matching q, SameKind d.computedAt d'.computedAt

theorem filterPassed_matchesDiff (h : ∀ d ∈ store.values, q.Reads d) :
    filterPassed q.matchesDiff store.values = .ok (store.matching q) := by
  rw [filterPassed_of_forall fun d hd => ⟨_, matchesDiff_of_reads (h d hd)⟩]
  unfold ServiceDiffInMemoryStore.matching
  congr 1
  apply List.filter_congr
  intro d hd
  rw [matchesDiff_of_reads (h d hd), holds]

theorem query_eq_ok_iff (hq : ∀ t ∈ q.bounds, ∀ t' ∈ q.bounds, SameKind t t')
    {l : List TimedDiff} : store.query q = .ok l ↔ Comparable store q ∧
      l = ((sortedDesc clock (store.matching q)).drop q.offset).take q.limit := by
  unfold ServiceDiffInMemoryStore.query
  constructor
  · intro h
    obtain ⟨matching, hmatching, h⟩ := bind_eq_ok h
    obtain ⟨sorted, hsorted, h⟩ := bind_eq_ok h
    have hreads : ∀ d ∈ store.values, q.Reads d := by
      intro d hd
      rcases forall_of_filterPassed hmatching d hd with ⟨b, hb⟩
      exact reads_of_matchesDiff hq hb
    obtain rfl := Except.ok.inj (hmatching.symm.trans (filterPassed_matchesDiff hreads))
    unfold sortNewest at hsorted
    split_ifs at hsorted with hkind
    cases hsorted
    exact ⟨⟨hreads, hkind⟩, (Except.ok.inj h).symm⟩
  · rintro ⟨hcomparable, rfl⟩
    rw [filterPassed_matchesDiff hcomparable.1]
    show (sortNewest (store.matching q) >>= _) = _
    rw [sortNewest, if_pos hcomparable.2]
    rfl

/-! ## Deletion -/

theorem nodup_values (store : ServiceDiffInMemoryStore) : (store.values.map (·.diffId)).Nodup := by
  have hkeys : store.values.map (·.diffId) = Dict.keys store.diffs.entries := by
    unfold ServiceDiffInMemoryStore.values
    rw [List.map_map]
    exact List.map_congr_left fun e he => (store.keyed e he).symm
  rw [hkeys]
  exact store.diffs.nodup_keys

theorem values_delete (store : ServiceDiffInMemoryStore) (id : UUID) :
    (store.delete id).values = store.values.filter fun d => d.diffId ≠ id := by
  unfold ServiceDiffInMemoryStore.values
  rw [List.filter_map]
  show (store.diffs.entries.filter fun e => e.1 ≠ id).map Prod.snd = _
  congr 1
  apply List.filter_congr
  intro e he
  rw [store.keyed e he]
  rfl

theorem foldl_deleteOld {old : List TimedDiff} (hids : (old.map (·.diffId)).Nodup)
    {store : ServiceDiffInMemoryStore} (hold : ∀ d ∈ old, d ∈ store.values) (n : ℕ) :
    (old.foldl ServiceDiffHistory.deleteOld (store, n)).1.values
        = store.values.filter (fun d => d.diffId ∉ old.map (·.diffId)) ∧
      (old.foldl ServiceDiffHistory.deleteOld (store, n)).2 = n + old.length := by
  induction old generalizing store n with
  | nil => simp
  | cons d old ih =>
    rw [List.map_cons, List.nodup_cons] at hids
    rw [List.forall_mem_cons] at hold
    have hcontains : store.diffs.contains d.diffId = true := by
      rcases List.mem_map.mp hold.1 with ⟨e, he, rfl⟩
      rw [PyDict.contains_iff, ← store.keyed e he]
      exact List.mem_map_of_mem he
    have hrest : ∀ d' ∈ old, d' ∈ (store.delete d.diffId).values := by
      intro d' hd'
      rw [values_delete, List.mem_filter]
      refine ⟨hold.2 d' hd', decide_eq_true fun heq => hids.1 ?_⟩
      exact heq ▸ List.mem_map_of_mem hd'
    rw [List.foldl_cons, ServiceDiffHistory.deleteOld, if_pos hcontains]
    obtain ⟨hvalues, hcount⟩ := ih hids.2 hrest (n + 1)
    constructor
    · rw [hvalues, values_delete, List.filter_filter]
      apply List.filter_congr
      intro d' _
      rw [← Bool.decide_and]
      exact decide_eq_decide.mpr (by rw [List.map_cons, List.mem_cons, not_or, and_comm])
    · rw [hcount, List.length_cons]
      omega

end

/-! ## Coverage -/

def inPeriod (name : Option String) (since stop : Option Datetime) (d : TimedDiff) : Bool :=
  (name.all fun name => name = d.beforeContractName || name = d.afterContractName) &&
    since.all (!isBefore d.computedAt ·) && stop.all (isBefore d.computedAt ·)

def period (name : Option String) (since stop : Option Datetime) : ModelDiffQuery where
  contractName := name
  computedAfter := since
  computedBefore := stop
  limit := 1000

/-- The cleanup removes what is older than the cutoff, and returns its number. -/
def CleanupExact (store : ServiceDiffInMemoryStore) (cutoff : Datetime) : Prop :=
  ∃ store' n, ServiceDiffHistory.cleanupOldDiffs store cutoff = .ok (store', n) ∧
    store'.values = store.values.filter (fun d => !isBefore d.computedAt cutoff) ∧
    n = store.values.countP fun d => isBefore d.computedAt cutoff

def StatisticsExact (store : ServiceDiffInMemoryStore) (name : Option String)
    (since : Option Datetime) : Prop :=
  ∃ stats, ServiceDiffHistory.getChangeStatistics store name since = .ok stats ∧
    ServiceDiffHistory.getDiffCount store name since = .ok stats.totalDiffs ∧
    stats = .of (store.values.filter (inPeriod name since none))

def RangeExact (str : Datetime → String) (store : ServiceDiffInMemoryStore) (start stop : Datetime)
    (name : Option String) : Prop :=
  ∃ l, ServiceDiffHistory.getDiffsInRange store str start stop name = .ok l ∧
    l.Perm (store.values.filter (inPeriod name (some start) (some stop))) ∧
    l.Pairwise fun d d' => isBefore d.computedAt d'.computedAt = false

def Covered (store : ServiceDiffInMemoryStore) (q : ModelDiffQuery) : Prop :=
  Comparable store q ∧ (store.matching q).length ≤ 1000

section
variable {store : ServiceDiffInMemoryStore} {name : Option String} {since stop : Option Datetime}

theorem matching_period :
    store.matching (period name since stop) = store.values.filter (inPeriod name since stop) := by
  apply List.filter_congr
  intro d _
  simp [ModelDiffQuery.asksFor, ModelDiffQuery.matchesNames, ModelDiffQuery.matchesChanges, period,
    inPeriod]

theorem query_period (hq : ∀ s ∈ since, ∀ t ∈ stop, SameKind s t) {l : List TimedDiff} :
    store.query (period name since stop) = .ok l ↔ Comparable store (period name since stop) ∧
      l = (sortedDesc clock (store.matching (period name since stop))).take 1000 := by
  apply query_eq_ok_iff
  intro t ht t' ht'
  rcases List.mem_append.mp ht with ht | ht
  · rcases List.mem_append.mp ht' with ht' | ht'
    · rw [Option.mem_unique (Option.mem_toList.mp ht) (Option.mem_toList.mp ht')]
      rfl
    · exact hq t (Option.mem_toList.mp ht) t' (Option.mem_toList.mp ht')
  · rcases List.mem_append.mp ht' with ht' | ht'
    · exact (hq t' (Option.mem_toList.mp ht') t (Option.mem_toList.mp ht)).symm
    · rw [Option.mem_unique (Option.mem_toList.mp ht) (Option.mem_toList.mp ht')]
      rfl

def page (l : List TimedDiff) : List TimedDiff := (sortedDesc clock l).take 1000

theorem perm_sortedDesc (l : List TimedDiff) : (sortedDesc clock l).Perm l :=
  List.perm_insertionSort _ l

theorem length_page (l : List TimedDiff) : (page l).length = min 1000 l.length := by
  rw [page, List.length_take, (perm_sortedDesc l).length_eq]

theorem page_of_length_le {l : List TimedDiff} (h : l.length ≤ 1000) :
    page l = sortedDesc clock l :=
  List.take_of_length_le ((perm_sortedDesc l).length_eq.trans_le h)

theorem delete_page (store : ServiceDiffInMemoryStore) (p : TimedDiff → Bool) :
    ((store.values.filter p).length ≤ 1000 →
      ((page (store.values.filter p)).foldl ServiceDiffHistory.deleteOld (store, 0)).1.values
        = store.values.filter fun d => !p d) ∧
      ((page (store.values.filter p)).foldl ServiceDiffHistory.deleteOld (store, 0)).2
        = min 1000 (store.values.filter p).length := by
  have hperm := perm_sortedDesc (store.values.filter p)
  have hstored : ∀ d ∈ page (store.values.filter p), d ∈ store.values := fun d hd =>
    List.mem_of_mem_filter (hperm.mem_iff.mp (List.mem_of_mem_take hd))
  have hids : ((page (store.values.filter p)).map (·.diffId)).Nodup := by
    have hall : ((store.values.filter p).map (·.diffId)).Nodup :=
      (nodup_values store).sublist (List.filter_sublist.map _)
    exact ((hperm.map _).nodup_iff.mpr hall).sublist ((List.take_sublist _ _).map _)
  obtain ⟨hvalues, hcount⟩ := foldl_deleteOld hids hstored 0
  refine ⟨fun hlength => ?_, by rw [hcount, length_page, Nat.zero_add]⟩
  rw [hvalues, page_of_length_le hlength]
  apply List.filter_congr
  intro d hd
  cases hp : p d with
  | true =>
    have hmem := hperm.mem_iff.mpr (List.mem_filter.mpr ⟨hd, hp⟩)
    simpa using ⟨d, hmem, rfl⟩
  | false =>
    refine decide_eq_true fun hmem => ?_
    rcases List.mem_map.mp hmem with ⟨d', hd', hid⟩
    have hd' := List.mem_filter.mp (hperm.mem_iff.mp hd')
    -- the identifiers of the stored diffs are distinct
    obtain rfl := List.inj_on_of_nodup_map (nodup_values store) hd'.1 hd hid
    exact absurd (hp.symm.trans hd'.2) Bool.false_ne_true

theorem cleanupExact_iff {cutoff : Datetime} :
    CleanupExact store cutoff ↔ Covered store (period none none (some cutoff)) := by
  have hquery := @query_period store none none (some cutoff) (by simp)
  have hmatching : store.matching (period none none (some cutoff))
      = store.values.filter fun d => isBefore d.computedAt cutoff := by
    rw [matching_period]
    exact List.filter_congr fun d _ => by simp [inPeriod]
  obtain ⟨hvalues, hcount⟩ := delete_page store fun d => isBefore d.computedAt cutoff
  unfold Covered CleanupExact
  rw [hmatching] at hquery ⊢
  rw [List.countP_eq_length_filter]
  constructor
  · rintro ⟨store', n, h, _, hn⟩
    obtain ⟨old, hold, h⟩ := bind_eq_ok h
    obtain ⟨hcomparable, rfl⟩ := hquery.mp hold
    have hdeleted := congrArg Prod.snd (Except.ok.inj h)
    exact ⟨hcomparable, min_eq_right_iff.mp (hcount.symm.trans (hdeleted.trans hn))⟩
  · rintro ⟨hcomparable, hlength⟩
    refine ⟨_, _, ?_, hvalues hlength, hcount.trans (min_eq_right hlength)⟩
    show (store.query (period none none (some cutoff)) >>= _) = _
    rw [hquery.mpr ⟨hcomparable, rfl⟩]
    rfl

theorem clock_lt {d d' : TimedDiff} (h : isBefore d.computedAt d'.computedAt = true) :
    clock d < clock d' := by
  unfold isBefore before at h
  unfold clock
  cases hd : d.computedAt.instant <;> cases hd' : d'.computedAt.instant <;>
    simp_all [holds]

theorem statistics_of_perm {l l' : List TimedDiff} (h : l.Perm l') :
    ChangeStatistics.of l = ChangeStatistics.of l' := by
  have hsum : ∀ f : TimedDiff → ℕ, (l.map f).sum = (l'.map f).sum := fun f =>
    (h.map f).sum_eq
  simp [ChangeStatistics.of, hsum, h.length_eq]

theorem statisticsExact_iff :
    StatisticsExact store name since ↔ Covered store (period name since none) := by
  have hquery := @query_period store name since none (by simp)
  unfold Covered
  rw [matching_period] at hquery ⊢
  constructor
  · rintro ⟨stats, h, _, hstats⟩
    obtain ⟨diffs, hdiffs, h⟩ := bind_eq_ok h
    obtain ⟨hcomparable, rfl⟩ := hquery.mp hdiffs
    have hlength := congrArg ChangeStatistics.totalDiffs ((Except.ok.inj h).trans hstats)
    exact ⟨hcomparable, min_eq_right_iff.mp ((length_page _).symm.trans hlength)⟩
  · rintro ⟨hcomparable, hlength⟩
    refine ⟨.of (store.values.filter (inPeriod name since none)), ?_, ?_, rfl⟩
    · show (store.query (period name since none) >>= _) = _
      rw [hquery.mpr ⟨hcomparable, rfl⟩]
      show Except.ok (ChangeStatistics.of (page _)) = _
      rw [page_of_length_le hlength, statistics_of_perm (perm_sortedDesc _)]
    · show (filterPassed (period name since none).matchesDiff store.values >>= _) = _
      rw [filterPassed_matchesDiff hcomparable.1, matching_period]
      rfl

theorem rangeExact_iff {str : Datetime → String} {start stop : Datetime} :
    RangeExact str store start stop name ↔ before stop start = .ok false ∧
      Covered store (period name (some start) (some stop)) := by
  have hquery := @query_period store name (some start) (some stop)
  unfold Covered
  rw [matching_period] at hquery ⊢
  constructor
  · rintro ⟨l, h, hperm, _⟩
    obtain ⟨reversed, hreversed, h⟩ := bind_eq_ok h
    cases reversed with
    | true => exact nomatch h
    | false =>
      have hkind := exists_before_iff.mp ⟨_, hreversed⟩
      obtain ⟨hcomparable, rfl⟩ := (hquery (by simpa [SameKind] using hkind.symm)).mp h
      exact ⟨hreversed, hcomparable, min_eq_right_iff.mp ((length_page _).symm.trans
        hperm.length_eq)⟩
  · rintro ⟨hreversed, hcomparable, hlength⟩
    have hkind := exists_before_iff.mp ⟨_, hreversed⟩
    refine ⟨page (store.values.filter (inPeriod name (some start) (some stop))), ?_, ?_, ?_⟩
    · show (before stop start >>= _) = _
      rw [hreversed]
      exact (hquery (by simpa [SameKind] using hkind.symm)).mpr ⟨hcomparable, rfl⟩
    · rw [page_of_length_le hlength]
      exact perm_sortedDesc _
    · rw [page_of_length_le hlength]
      exact (pairwise_sortedDesc clock _).imp fun hle =>
        Bool.not_eq_true _ ▸ fun h => absurd (clock_lt h) (not_lt.mpr hle)

end

/-- The operations of the history cover a store if and only if the dates that they compare can be
compared and no more than 1000 diffs match. -/
theorem history_covers_iff (str : Datetime → String) (store : ServiceDiffInMemoryStore) :
    (∀ cutoff, CleanupExact store cutoff ↔ Covered store (period none none (some cutoff))) ∧
      (∀ name since,
        StatisticsExact store name since ↔ Covered store (period name since none)) ∧
      ∀ name start stop, RangeExact str store start stop name ↔
        before stop start = .ok false ∧ Covered store (period name (some start) (some stop)) :=
  ⟨fun _ => cleanupExact_iff, fun _ _ => statisticsExact_iff, fun _ _ _ => rangeExact_iff⟩

def oldDiff (k : ℕ) : TimedDiff where
  beforeContractName := "Contract"
  afterContractName := "Contract"
  diffId := ⟨Fin.ofNat _ k⟩
  computedAt := { reading := 0 }

theorem nodup_oldDiffs {n : ℕ} (hn : n ≤ 2 ^ 128) :
    (Dict.keys ((List.range n).map fun k => ((oldDiff k).diffId, oldDiff k))).Nodup := by
  rw [Dict.keys, List.map_map]
  refine List.Nodup.map_on (fun k hk k' hk' h => ?_) List.nodup_range
  have hval : k % 2 ^ 128 = k' % 2 ^ 128 := congrArg (fun id : UUID => id.int.val) h
  rw [List.mem_range] at hk hk'
  omega

def oldDiffs (n : ℕ) (hn : n ≤ 2 ^ 128) : ServiceDiffInMemoryStore where
  diffs := {
    entries := (List.range n).map fun k => ((oldDiff k).diffId, oldDiff k)
    nodup_keys := nodup_oldDiffs hn }
  keyed e he := by
    rcases List.mem_map.mp he with ⟨k, _, rfl⟩
    rfl

theorem not_covered_oldDiffs {n : ℕ} {hn : n ≤ 2 ^ 128} {since stop : Option Datetime}
    (hmany : 1000 < n) (hall : ∀ k, inPeriod none since stop (oldDiff k) = true) :
    ¬ Covered (oldDiffs n hn) (period none since stop) := by
  intro h
  have hfilter : (oldDiffs n hn).values.filter (inPeriod none since stop)
      = (oldDiffs n hn).values := by
    apply List.filter_eq_self.mpr
    intro d hd
    rcases List.mem_map.mp hd with ⟨e, he, rfl⟩
    rcases List.mem_map.mp he with ⟨k, _, rfl⟩
    exact hall k
  have hle := h.2
  rw [matching_period, hfilter] at hle
  simp only [ServiceDiffInMemoryStore.values, oldDiffs, List.length_map, List.length_range] at hle
  omega

theorem oldDiffs_not_exact :
    ¬ CleanupExact (oldDiffs 1001 (by omega)) { reading := 1 } ∧
      ¬ StatisticsExact (oldDiffs 1001 (by omega)) none none ∧
      ¬ RangeExact (fun _ => "") (oldDiffs 1001 (by omega)) { reading := 0 } { reading := 1 } none :=
  ⟨mt cleanupExact_iff.mp (not_covered_oldDiffs (by omega) fun _ => rfl),
    mt statisticsExact_iff.mp (not_covered_oldDiffs (by omega) fun _ => rfl),
    fun h => not_covered_oldDiffs (by omega) (fun _ => rfl) (rangeExact_iff.mp h).2⟩

end OmnibaseCore.Diff
