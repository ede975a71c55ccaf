import OmnibaseCore.Python.Basic
import OmnibaseCore.Python.Text

/-!
# The cost ledger

`ModelCostLedger`: the budget, what has been spent of it, and the entries. An operation makes a
new ledger, which the validators check like any other: `with_entry` compares the running total of
an entry with that of the ledger, the validators compare it with the running total of the entry
before. The amounts are exact rationals.

* `accounts_iff`: the ledger accounts for a run exactly if the budget that remains is exact at the
  start and no entry drifts from the one before by more than its tolerance.
-/

namespace OmnibaseCore.Omnimemory

/-! ## The models -/

/-- `1e-9`, the tolerance of the checks. -/
def tolerance : ℚ := 1 / 10 ^ 9

/-- `ModelCostEntry`, with the amounts that the ledger reads. -/
structure ModelCostEntry where
  cost : ℚ
  cumulativeTotal : ℚ
  cost_nonneg : 0 ≤ cost
  /-- `validate_cumulative_total_ge_cost` -/
  cost_le : cost ≤ cumulativeTotal
deriving DecidableEq

/-- The fields of a `ModelCostLedger`. -/
structure LedgerFields where
  ledgerId : UUID
  budgetTotal : ℚ
  budgetRemaining : ℚ
  entries : List ModelCostEntry := []
  totalSpent : ℚ := 0
  escalationCount : ℕ := 0
  lastEscalationReason : Option String := none
  warningThreshold : ℚ := 8 / 10
  hardCeiling : ℚ := 1

inductive LedgerError
  /-- a bound of a field -/
  | field (name : String)
  | emptyReason
  | thresholds (hardCeiling warningThreshold : ℚ)
  | budgetRemaining (remaining expected : ℚ)
  | entryTotal (i : ℕ) (entry prev : ModelCostEntry)
  /-- raised by `with_entry` -/
  | cumulativeTotal (found expected : ℚ)
  /-- raised by `with_escalation` -/
  | additionalBudget (amount : ℚ)
  | noReason

/-! ## The validators -/

def LedgerFields.fieldError (f : LedgerFields) : Option LedgerError :=
  if f.budgetTotal ≤ 0 then some (.field "budget_total")
  else if f.totalSpent < 0 then some (.field "total_spent")
  else if ¬ (0 < f.warningThreshold ∧ f.warningThreshold ≤ 1) then
    some (.field "warning_threshold")
  else if ¬ (0 < f.hardCeiling ∧ f.hardCeiling ≤ 2) then some (.field "hard_ceiling")
  else none

/-- `validate_escalation_reason_not_empty`. -/
def LedgerFields.reasonError (f : LedgerFields) : Option LedgerError :=
  match f.lastEscalationReason with
  | some reason => if strip reason = "" then some .emptyReason else none
  | none => none

/-- `validate_thresholds_and_budget`. -/
def LedgerFields.thresholdError (f : LedgerFields) : Option LedgerError :=
  if f.hardCeiling ≤ f.warningThreshold then some (.thresholds f.hardCeiling f.warningThreshold)
  else if tolerance < |f.budgetRemaining - (f.budgetTotal - f.totalSpent)| then
    some (.budgetRemaining f.budgetRemaining (f.budgetTotal - f.totalSpent))
  else none

/-- `validate_entries_cumulative_totals`, from the entry with the index `i`. -/
def entriesError (prev : ModelCostEntry) : ℕ → List ModelCostEntry → Option LedgerError
  | _, [] => none
  | i, entry :: rest =>
    if tolerance < |entry.cumulativeTotal - (prev.cumulativeTotal + entry.cost)| then
      some (.entryTotal i entry prev)
    else entriesError entry (i + 1) rest

/-- `validate_entries_cumulative_totals`. -/
def LedgerFields.entriesError (f : LedgerFields) : Option LedgerError :=
  match f.entries with
  | [] => none
  | first :: rest => Omnimemory.entriesError first 1 rest

def LedgerFields.error (f : LedgerFields) : Option LedgerError :=
  f.fieldError.or (f.reasonError.or (f.thresholdError.or f.entriesError))

/-- `ModelCostLedger`: fields that the validators let through. -/
structure ModelCostLedger extends LedgerFields where
  valid : toLedgerFields.error = none

/-- `ModelCostLedger(...)` with all fields. -/
def construct (f : LedgerFields) : Except LedgerError ModelCostLedger :=
  match h : f.error with
  | some e => .error e
  | none => .ok { toLedgerFields := f, valid := h }

/-- `compute_budget_remaining`: what remains of the budget is computed where it is not given. -/
def computeBudgetRemaining (budgetTotal totalSpent : ℚ) (budgetRemaining : Option ℚ) : ℚ :=
  budgetRemaining.getD (budgetTotal - totalSpent)

/-! ## The operations -/

section
variable (l : ModelCostLedger)

def ModelCostLedger.withEntry (entry : ModelCostEntry) : Except LedgerError ModelCostLedger :=
  let newTotalSpent := l.totalSpent + entry.cost
  if tolerance < |entry.cumulativeTotal - newTotalSpent| then
    .error (.cumulativeTotal entry.cumulativeTotal newTotalSpent)
  else
    construct
      { l.toLedgerFields with
        budgetRemaining := l.budgetTotal - newTotalSpent
        entries := l.entries ++ [entry]
        totalSpent := newTotalSpent }

def ModelCostLedger.withEscalation (additionalBudget : ℚ) (reason : String) :
    Except LedgerError ModelCostLedger :=
  if additionalBudget ≤ 0 then .error (.additionalBudget additionalBudget)
  else if strip reason = "" then .error .noReason
  else
    construct
      { l.toLedgerFields with
        budgetTotal := l.budgetTotal + additionalBudget
        budgetRemaining := l.budgetTotal + additionalBudget - l.totalSpent
        escalationCount := l.escalationCount + 1
        lastEscalationReason := some reason }

def ModelCostLedger.IsWarning : Prop := l.warningThreshold * l.budgetTotal ≤ l.totalSpent

def ModelCostLedger.IsExceeded : Prop := l.hardCeiling * l.budgetTotal ≤ l.totalSpent

end

/-! ## What the validators let through -/

def Continues (entries : List ModelCostEntry) : Prop :=
  entries.IsChain fun prev entry =>
    |entry.cumulativeTotal - (prev.cumulativeTotal + entry.cost)| ≤ tolerance

/-- What the validators let through. -/
structure LedgerFields.Valid (f : LedgerFields) : Prop where
  budgetTotal : 0 < f.budgetTotal
  totalSpent : 0 ≤ f.totalSpent
  warningThreshold : 0 < f.warningThreshold ∧ f.warningThreshold ≤ 1
  hardCeiling : 0 < f.hardCeiling ∧ f.hardCeiling ≤ 2
  reason : ∀ reason, f.lastEscalationReason = some reason → strip reason ≠ ""
  thresholds : f.warningThreshold < f.hardCeiling
  budgetRemaining : |f.budgetRemaining - (f.budgetTotal - f.totalSpent)| ≤ tolerance
  entries : Continues f.entries

variable {f : LedgerFields}

theorem fieldError_eq_none_iff : f.fieldError = none ↔ 0 < f.budgetTotal ∧ 0 ≤ f.totalSpent ∧
      (0 < f.warningThreshold ∧ f.warningThreshold ≤ 1) ∧ 0 < f.hardCeiling ∧ f.hardCeiling ≤ 2 := by
  unfold LedgerFields.fieldError
  split_ifs <;> simp_all

theorem reasonError_eq_none_iff :
    f.reasonError = none ↔ ∀ reason, f.lastEscalationReason = some reason → strip reason ≠ "" := by
  unfold LedgerFields.reasonError
  cases f.lastEscalationReason <;> simp

theorem thresholdError_eq_none_iff : f.thresholdError = none ↔ f.warningThreshold < f.hardCeiling ∧
      |f.budgetRemaining - (f.budgetTotal - f.totalSpent)| ≤ tolerance := by
  unfold LedgerFields.thresholdError
  split_ifs <;> simp_all

theorem entriesError_eq_none_iff {prev : ModelCostEntry} {i : ℕ} {entries : List ModelCostEntry} :
    entriesError prev i entries = none ↔ Continues (prev :: entries) := by
  induction entries generalizing prev i with
  | nil => simp [entriesError, Continues]
  | cons entry rest ih =>
    unfold Continues
    rw [List.isChain_cons_cons, entriesError]
    split_ifs with h
    · simp [not_le.mpr h]
    · rw [ih]
      exact ⟨fun hrest => ⟨not_lt.mp h, hrest⟩, And.right⟩

theorem error_eq_none_iff : f.error = none ↔ f.Valid := by
  have hentries : f.entriesError = none ↔ Continues f.entries := by
    unfold LedgerFields.entriesError
    cases f.entries with
    | nil => simp [Continues]
    | cons first rest => exact entriesError_eq_none_iff
  unfold LedgerFields.error
  rw [Option.or_eq_none_iff, Option.or_eq_none_iff, Option.or_eq_none_iff, fieldError_eq_none_iff,
    reasonError_eq_none_iff, thresholdError_eq_none_iff, hentries]
  constructor
  · rintro ⟨⟨htotal, hspent, hwarning, hceiling⟩, hreason, ⟨hthresholds, hremaining⟩, hentries⟩
    exact ⟨htotal, hspent, hwarning, hceiling, hreason, hthresholds, hremaining, hentries⟩
  · intro h
    exact ⟨⟨h.budgetTotal, h.totalSpent, h.warningThreshold, h.hardCeiling⟩, h.reason,
      ⟨h.thresholds, h.budgetRemaining⟩, h.entries⟩

theorem ModelCostLedger.isValid (l : ModelCostLedger) : l.toLedgerFields.Valid :=
  error_eq_none_iff.mp l.valid

theorem construct_eq_ok_iff {l : ModelCostLedger} : construct f = .ok l ↔ l.toLedgerFields = f := by
  unfold construct
  split
  next e he =>
    refine iff_of_false (fun h => nomatch h) fun h => ?_
    rw [← h, l.valid] at he
    exact nomatch he
  next he =>
    rw [Except.ok.injEq]
    obtain ⟨fields, valid⟩ := l
    simp [eq_comm]

/-! ## When the operations return -/

section
variable {l l' : ModelCostLedger}

def ModelCostLedger.Matches (l : ModelCostLedger) (entry : ModelCostEntry) : Prop :=
  |entry.cumulativeTotal - (l.totalSpent + entry.cost)| ≤ tolerance

def ModelCostLedger.ContinuedBy (l : ModelCostLedger) (entry : ModelCostEntry) : Prop :=
  ∀ last ∈ l.entries.getLast?,
    |entry.cumulativeTotal - (last.cumulativeTotal + entry.cost)| ≤ tolerance

def ModelCostLedger.extended (l : ModelCostLedger) (entry : ModelCostEntry) : LedgerFields :=
  { l.toLedgerFields with
    budgetRemaining := l.budgetTotal - (l.totalSpent + entry.cost)
    entries := l.entries ++ [entry]
    totalSpent := l.totalSpent + entry.cost }

def ModelCostLedger.escalated (l : ModelCostLedger) (additionalBudget : ℚ) (reason : String) :
    LedgerFields :=
  { l.toLedgerFields with
    budgetTotal := l.budgetTotal + additionalBudget
    budgetRemaining := l.budgetTotal + additionalBudget - l.totalSpent
    escalationCount := l.escalationCount + 1
    lastEscalationReason := some reason }

theorem tolerance_nonneg : 0 ≤ tolerance := by
  unfold tolerance
  positivity

variable {entry : ModelCostEntry}

theorem valid_extended_iff : (l.extended entry).Valid ↔ l.ContinuedBy entry := by
  have hl := l.isValid
  have hchain : Continues (l.entries ++ [entry]) ↔ l.ContinuedBy entry := by
    unfold Continues
    rw [List.isChain_append]
    simp only [List.isChain_singleton, List.head?_cons, Option.mem_some_iff, forall_eq', true_and]
    exact ⟨And.right, fun h => ⟨hl.entries, h⟩⟩
  constructor
  · intro h
    exact hchain.mp h.entries
  · intro h
    have hspent : 0 ≤ l.totalSpent + entry.cost := add_nonneg hl.totalSpent entry.cost_nonneg
    refine ⟨hl.budgetTotal, hspent, hl.warningThreshold, hl.hardCeiling, hl.reason, hl.thresholds,
      ?_, hchain.mpr h⟩
    show |l.budgetTotal - (l.totalSpent + entry.cost)
      - (l.budgetTotal - (l.totalSpent + entry.cost))| ≤ tolerance
    rw [sub_self, abs_zero]
    exact tolerance_nonneg

theorem withEntry_eq_ok_iff : l.withEntry entry = .ok l' ↔
      l.Matches entry ∧ l.ContinuedBy entry ∧ l'.toLedgerFields = l.extended entry := by
  unfold ModelCostLedger.withEntry ModelCostLedger.Matches
  dsimp only
  split_ifs with h
  · exact iff_of_false (fun h => nomatch h) fun h' => not_lt.mpr h'.1 h
  · show construct (l.extended entry) = .ok l' ↔ _
    rw [construct_eq_ok_iff]
    constructor
    · intro hfields
      refine ⟨not_lt.mp h, valid_extended_iff.mp ?_, hfields⟩
      rw [← hfields]
      exact l'.isValid
    · exact fun h => h.2.2

/-- An entry is taken if it matches the ledger and continues the last entry. -/
theorem withEntry_returns_iff :
    (∃ l', l.withEntry entry = .ok l') ↔ l.Matches entry ∧ l.ContinuedBy entry := by
  constructor
  · rintro ⟨l', h⟩
    exact ⟨(withEntry_eq_ok_iff.mp h).1, (withEntry_eq_ok_iff.mp h).2.1⟩
  · rintro ⟨hmatches, hcontinued⟩
    refine ⟨⟨l.extended entry, error_eq_none_iff.mpr (valid_extended_iff.mpr hcontinued)⟩, ?_⟩
    exact withEntry_eq_ok_iff.mpr ⟨hmatches, hcontinued, rfl⟩

theorem withEscalation_eq_ok_iff {additionalBudget : ℚ} {reason : String} :
    l.withEscalation additionalBudget reason = .ok l' ↔
      0 < additionalBudget ∧ strip reason ≠ "" ∧
        l'.toLedgerFields = l.escalated additionalBudget reason := by
  unfold ModelCostLedger.withEscalation
  split_ifs with hbudget hreason
  · exact iff_of_false (fun h => nomatch h) fun h => not_lt.mpr hbudget h.1
  · exact iff_of_false (fun h => nomatch h) fun h => h.2.1 hreason
  · show construct (l.escalated additionalBudget reason) = .ok l' ↔ _
    rw [construct_eq_ok_iff]
    exact ⟨fun h => ⟨not_le.mp hbudget, hreason, h⟩, fun h => h.2.2⟩

theorem ModelCostLedger.IsExceeded.isWarning (h : l.IsExceeded) : l.IsWarning := by
  have hl := l.isValid
  calc l.warningThreshold * l.budgetTotal ≤ l.hardCeiling * l.budgetTotal :=
        mul_le_mul_of_nonneg_right hl.thresholds.le hl.budgetTotal.le
    _ ≤ l.totalSpent := h

end

/-! ## Runs -/

inductive LedgerCall
  | withEntry (entry : ModelCostEntry)
  | withEscalation (additionalBudget : ℚ) (reason : String)

def ModelCostLedger.call (l : ModelCostLedger) : LedgerCall → Except LedgerError ModelCostLedger
  | .withEntry entry => l.withEntry entry
  | .withEscalation additionalBudget reason => l.withEscalation additionalBudget reason

def ModelCostLedger.next (l : ModelCostLedger) (call : LedgerCall) : ModelCostLedger :=
  match l.call call with
  | .ok l' => l'
  | .error _ => l

/-- The ledger after a sequence of calls, each made on the ledger that the one before has left. -/
def ModelCostLedger.run (l : ModelCostLedger) (calls : List LedgerCall) : ModelCostLedger :=
  calls.foldl ModelCostLedger.next l

def accepted (l : ModelCostLedger) : List LedgerCall → List LedgerCall
  | [] => []
  | call :: rest =>
    match l.call call with
    | .ok l' => call :: accepted l' rest
    | .error _ => accepted l rest

def LedgerCall.entry? : LedgerCall → Option ModelCostEntry
  | .withEntry entry => some entry
  | .withEscalation .. => none

def LedgerCall.escalation? : LedgerCall → Option ℚ
  | .withEntry _ => none
  | .withEscalation additionalBudget _ => some additionalBudget

theorem call_spec {l l' : ModelCostLedger} {call : LedgerCall} (h : l.call call = .ok l') :
    l'.entries = l.entries ++ call.entry?.toList ∧
      l'.totalSpent = l.totalSpent + (call.entry?.toList.map (·.cost)).sum ∧
      l'.budgetTotal = l.budgetTotal + call.escalation?.toList.sum ∧
      l'.escalationCount = l.escalationCount + call.escalation?.toList.length ∧
      l'.budgetRemaining = l'.budgetTotal - l'.totalSpent := by
  cases call with
  | withEntry entry =>
    obtain ⟨-, -, hfields⟩ := withEntry_eq_ok_iff.mp h
    simp [hfields, LedgerCall.entry?, LedgerCall.escalation?, ModelCostLedger.extended]
  | withEscalation additionalBudget reason =>
    obtain ⟨-, -, hfields⟩ := withEscalation_eq_ok_iff.mp h
    simp [hfields, LedgerCall.entry?, LedgerCall.escalation?, ModelCostLedger.escalated]

/-- What a run leaves in the ledger: its entries are those of the calls that have returned, in
their order, and the totals are the sums over them. -/
theorem run_spec (l : ModelCostLedger) (calls : List LedgerCall) :
    (l.run calls).entries = l.entries ++ (accepted l calls).filterMap LedgerCall.entry? ∧
      (l.run calls).totalSpent = l.totalSpent +
        (((accepted l calls).filterMap LedgerCall.entry?).map (·.cost)).sum ∧
      (l.run calls).budgetTotal = l.budgetTotal +
        ((accepted l calls).filterMap LedgerCall.escalation?).sum ∧
      (l.run calls).escalationCount = l.escalationCount +
        ((accepted l calls).filterMap LedgerCall.escalation?).length := by
  induction calls generalizing l with
  | nil => simp [ModelCostLedger.run, accepted]
  | cons call rest ih =>
    show ((l.next call).run rest).entries = _ ∧ ((l.next call).run rest).totalSpent = _ ∧
      ((l.next call).run rest).budgetTotal = _ ∧ ((l.next call).run rest).escalationCount = _
    unfold accepted ModelCostLedger.next
    cases hcall : l.call call with
    | error e => exact ih l
    | ok l' =>
      have hcons : ∀ {β : Type} (f : LedgerCall → Option β),
          (call :: accepted l' rest).filterMap f
            = (f call).toList ++ (accepted l' rest).filterMap f := by
        intro β f
        rw [List.filterMap_cons]
        cases f call <;> rfl
      dsimp only
      obtain ⟨hentries, hspent, hbudget, hcount⟩ := ih l'
      obtain ⟨hentries', hspent', hbudget', hcount', -⟩ := call_spec hcall
      rw [hentries, hspent, hbudget, hcount, hentries', hspent', hbudget', hcount', hcons, hcons]
      simp only [List.append_assoc, List.map_append, List.sum_append, List.length_append, add_assoc,
        and_self]

theorem run_budgetRemaining {l : ModelCostLedger}
    (h : l.budgetRemaining = l.budgetTotal - l.totalSpent) (calls : List LedgerCall) :
    (l.run calls).budgetRemaining = (l.run calls).budgetTotal - (l.run calls).totalSpent := by
  induction calls generalizing l with
  | nil => exact h
  | cons call rest ih =>
    show ((l.next call).run rest).budgetRemaining = _ - _
    apply ih
    unfold ModelCostLedger.next
    cases hcall : l.call call with
    | error e => exact h
    | ok l' => exact (call_spec hcall).2.2.2.2

/-! ## The accounts of a run -/

structure Balanced (l : ModelCostLedger) (calls : List LedgerCall) : Prop where
  totalSpent : (l.run calls).totalSpent
    = l.totalSpent + ((l.run calls).entries.map (·.cost)).sum
  budgetRemaining : (l.run calls).budgetRemaining
    = (l.run calls).budgetTotal - (l.run calls).totalSpent
  entries : (l.run calls).entries = (accepted l calls).filterMap LedgerCall.entry?
  escalationCount : (l.run calls).escalationCount
    = l.escalationCount + ((accepted l calls).filterMap LedgerCall.escalation?).length
  exceeded : (l.run calls).IsExceeded → (l.run calls).IsWarning

/-- The ledger accounts for a run: it is balanced after every call, and takes the entries that
match it and no others. -/
structure Accounts (l : ModelCostLedger) (calls : List LedgerCall) : Prop where
  balanced : ∀ before, before <+: calls → Balanced l before
  takes : ∀ before entry, before ++ [.withEntry entry] <+: calls →
    ((∃ l', (l.run before).withEntry entry = .ok l') ↔ (l.run before).Matches entry)

/-- A ledger without entries accounts for a run: if and only if what remains of its budget is
exact, and every entry that matches the ledger continues the last one. -/
theorem accounts_iff {l : ModelCostLedger} (hempty : l.entries = []) (calls : List LedgerCall) :
    Accounts l calls ↔
      l.budgetRemaining = l.budgetTotal - l.totalSpent ∧
        ∀ before entry, before ++ [.withEntry entry] <+: calls →
          (l.run before).Matches entry → (l.run before).ContinuedBy entry := by
  constructor
  · intro h
    refine ⟨(h.balanced [] List.nil_prefix).budgetRemaining, fun before entry hbefore hmatches => ?_⟩
    exact (withEntry_returns_iff.mp ((h.takes before entry hbefore).mpr hmatches)).2
  · rintro ⟨hremaining, hcontinued⟩
    constructor
    · intro before _
      obtain ⟨hentries, hspent, -, hcount⟩ := run_spec l before
      rw [hempty, List.nil_append] at hentries
      refine ⟨?_, run_budgetRemaining hremaining before, hentries, hcount, fun h => h.isWarning⟩
      rw [hentries]
      exact hspent
    · intro before entry hbefore
      rw [withEntry_returns_iff]
      exact ⟨And.left, fun h => ⟨h, hcontinued before entry hbefore h⟩⟩

/-! ## Examples -/

def unitEntry (cumulativeTotal : ℚ) (h : 1 ≤ cumulativeTotal) : ModelCostEntry where
  cost := 1
  cumulativeTotal := cumulativeTotal
  cost_nonneg := by decide +kernel
  cost_le := h

def freshLedger : ModelCostLedger where
  ledgerId := ⟨1⟩
  budgetTotal := 10
  budgetRemaining := computeBudgetRemaining 10 0 none
  valid := by decide +kernel

/-- Entries without drift, an escalation, and an entry that does not match. -/
def exactCalls : List LedgerCall :=
  [.withEntry (unitEntry 1 (by decide +kernel)), .withEntry (unitEntry 2 (by decide +kernel)),
    .withEscalation 5 "scope", .withEntry (unitEntry 9 (by decide +kernel))]

theorem accounts_iff_exact : Accounts freshLedger exactCalls := by
  refine (accounts_iff rfl _).mpr ⟨by decide +kernel, fun before entry hbefore hmatches => ?_⟩
  obtain ⟨rest, hcalls⟩ := hbefore
  obtain ⟨k, hbefore, hcall⟩ : ∃ k, before = exactCalls.take k ∧
      exactCalls[k]? = some (.withEntry entry) :=
    ⟨before.length, by rw [← hcalls]; simp, by rw [← hcalls]; simp⟩
  rw [hbefore] at hmatches ⊢
  -- the entry is that of the first, the second or the last call
  match k with
  | 0 => exact fun last hlast => nomatch hlast
  | 1 =>
    rw [← LedgerCall.withEntry.inj (Option.some.inj hcall)]
    unfold ModelCostLedger.ContinuedBy
    decide +kernel
  | 2 => exact nomatch Option.some.inj hcall
  | 3 =>
    rw [← LedgerCall.withEntry.inj (Option.some.inj hcall)] at hmatches
    unfold ModelCostLedger.Matches at hmatches
    exact absurd hmatches (by decide +kernel)
  | _ + 4 => exact nomatch hcall

/-- The first entry is a little too high and the second a little too low: each matches the ledger,
and the validators reject the second one. -/
def driftingCalls : List LedgerCall :=
  [.withEntry (unitEntry (1 + 9 / 10 ^ 10) (by decide +kernel)),
    .withEntry (unitEntry (2 - 9 / 10 ^ 10) (by decide +kernel))]

theorem driftingCalls_not_accounts :
    (freshLedger.run (driftingCalls.take 1)).Matches
        (unitEntry (2 - 9 / 10 ^ 10) (by decide +kernel)) ∧
      ¬ Accounts freshLedger driftingCalls := by
  have hmatches : (freshLedger.run (driftingCalls.take 1)).Matches
      (unitEntry (2 - 9 / 10 ^ 10) (by decide +kernel)) := by
    unfold ModelCostLedger.Matches
    decide +kernel
  refine ⟨hmatches, fun h => ?_⟩
  obtain ⟨-, hcontinued⟩ := withEntry_returns_iff.mp ((h.takes _ _ ⟨[], rfl⟩).mpr hmatches)
  have hlast : unitEntry (1 + 9 / 10 ^ 10) (by decide +kernel)
      ∈ (freshLedger.run (driftingCalls.take 1)).entries.getLast? := by
    decide +kernel
  have hnot := hcontinued _ hlast
  exact absurd hnot (by decide +kernel)

end OmnibaseCore.Omnimemory
