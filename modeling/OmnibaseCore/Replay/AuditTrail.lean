import OmnibaseCore.Python.GroupBy
import OmnibaseCore.Python.Slice
import OmnibaseCore.Replay.Recorder
import OmnibaseCore.Tiered.Model

/-!
# The audit trail of a replay

`ServiceAuditTrail`: decisions are recorded in a list that may be bounded, and in two indices, by
outcome and by source, that queries with a filter and the summary read.
-/

namespace OmnibaseCore.Replay

open Tiered (Datetime)

/-! ## Entries -/

inductive EnumNonDeterministicSource
  | time
  | random
  | uuid
  | network
  | database
  | filesystem
  | environment
deriving DecidableEq

def EnumNonDeterministicSource.value : EnumNonDeterministicSource → String
  | .time => "time"
  | .random => "random"
  | .uuid => "uuid"
  | .network => "network"
  | .database => "database"
  | .filesystem => "filesystem"
  | .environment => "environment"

inductive EnumEnforcementMode
  | strict
  | warn
  | permissive
  | mocked

def EnumEnforcementMode.value : EnumEnforcementMode → String
  | .strict => "strict"
  | .warn => "warn"
  | .permissive => "permissive"
  | .mocked => "mocked"

inductive EnforcementOutcome
  | allowed
  | blocked
  | warned
  | mocked
deriving DecidableEq

def EnforcementOutcome.value : EnforcementOutcome → String
  | .allowed => "allowed"
  | .blocked => "blocked"
  | .warned => "warned"
  | .mocked => "mocked"

/-- `ModelEnforcementDecision`, the fields that the trail reads. -/
structure ModelEnforcementDecision where
  effectType : String
  source : Option EnumNonDeterministicSource := none
  mode : EnumEnforcementMode
  decision : EnforcementOutcome
  timestamp : Datetime

structure ModelAuditTrailEntry where
  id : UUID
  sessionId : UUID
  sequenceNumber : ℕ
  decision : ModelEnforcementDecision
  context : JsonDict

structure ModelAuditTrailSummary where
  sessionId : UUID
  totalDecisions : ℕ
  decisionsByOutcome : List (String × ℕ) := []
  decisionsBySource : List (String × ℕ) := []
  decisionsByMode : List (String × ℕ) := []
  firstDecisionAt : Option Datetime := none
  lastDecisionAt : Option Datetime := none
  blockedEffects : List String := []

/-! ## The trail -/

structure ServiceAuditTrail where
  sessionId : UUID
  maxEntries : Option ℤ
  entries : List ModelAuditTrailEntry := []
  sequenceCounter : ℕ := 0
  indexByOutcome : List (String × List ModelAuditTrailEntry) := []
  indexBySource : List (Option EnumNonDeterministicSource × List ModelAuditTrailEntry) := []

namespace ServiceAuditTrail

/-- `record`. The identifier is what `uuid4` returns. -/
def record (s : ServiceAuditTrail) (id : UUID) (decision : ModelEnforcementDecision)
    (context : Option JsonDict) : ServiceAuditTrail :=
  let entry : ModelAuditTrailEntry :=
    { id, sessionId := s.sessionId, sequenceNumber := s.sequenceCounter, decision
      context := context.getD [] }
  let entries := s.entries ++ [entry]
  { s with
    entries :=
      match s.maxEntries with
      | none => entries
      | some maxEntries =>
        if maxEntries < entries.length then sliceFrom entries (entries.length - maxEntries)
        else entries
    sequenceCounter := s.sequenceCounter + 1
    indexByOutcome := appendAt s.indexByOutcome decision.decision.value entry
    indexBySource := appendAt s.indexBySource decision.source entry }

def clear (s : ServiceAuditTrail) : ServiceAuditTrail :=
  { s with entries := [], sequenceCounter := 0, indexByOutcome := [], indexBySource := [] }

/-- The filters of `get_entries`. -/
def matching (s : ServiceAuditTrail) (outcome : Option String)
    (source : Option EnumNonDeterministicSource) : List ModelAuditTrailEntry :=
  match outcome, source with
  | some outcome, some source =>
    let outcomeEntries := getList s.indexByOutcome outcome
    let sourceEntries := getList s.indexBySource (some source)
    if outcomeEntries.length ≤ sourceEntries.length then
      outcomeEntries.filter (·.decision.source = some source)
    else sourceEntries.filter (·.decision.decision.value = outcome)
  | some outcome, none => getList s.indexByOutcome outcome
  | none, some source => getList s.indexBySource (some source)
  | none, none => s.entries

/-- The limit of `get_entries`. -/
def limitTo (limit : Option ℤ) (result : List ModelAuditTrailEntry) :
    List ModelAuditTrailEntry :=
  match limit with
  | none => result
  | some limit => sliceTo result limit

def getEntries (s : ServiceAuditTrail) (outcome : Option String)
    (source : Option EnumNonDeterministicSource) (limit : Option ℤ) :
    List ModelAuditTrailEntry :=
  limitTo limit (s.matching outcome source)

/-- `d[k] += 1`. -/
def countAt (d : List (String × ℕ)) (key : String) : List (String × ℕ) :=
  dictSet d key (((d.find? (·.1 = key)).map Prod.snd).getD 0 + 1)

/-- `d < d'` of dates. -/
def before (d d' : Datetime) : Except PyException Bool :=
  match d.instant, d'.instant with
  | some t, some t' => .ok (t < t')
  | none, none => .ok (d.reading < d'.reading)
  | _, _ => .error (.typeError "can't compare offset-naive and offset-aware datetimes")

theorem exists_before_iff {d d' : Datetime} :
    (∃ b, before d d' = .ok b) ↔ d.instant.isSome = d'.instant.isSome := by
  unfold before
  cases d.instant <;> cases d'.instant <;> simp

/-- What the loop of `get_summary` has found. -/
structure Aggregate where
  decisionsByMode : List (String × ℕ) := []
  blockedEffects : List String := []
  firstDecisionAt : Datetime
  lastDecisionAt : Datetime

/-- One turn of the loop of `get_summary`. -/
def aggregate (found : Aggregate) (entry : ModelAuditTrailEntry) :
    Except PyException Aggregate := do
  let decision := entry.decision
  let timestamp := decision.timestamp
  let earlier ← before timestamp found.firstDecisionAt
  let later ← before found.lastDecisionAt timestamp
  return {
    decisionsByMode := countAt found.decisionsByMode decision.mode.value
    blockedEffects :=
      if decision.decision = .blocked then found.blockedEffects.insert decision.effectType
      else found.blockedEffects
    firstDecisionAt := if earlier then timestamp else found.firstDecisionAt
    lastDecisionAt := if later then timestamp else found.lastDecisionAt }

/-- The keys of `decisions_by_source`. -/
def sourceKey (source : Option EnumNonDeterministicSource) : String :=
  match source with
  | some source => source.value
  | none => "unknown"

def getSummary (s : ServiceAuditTrail) : Except PyException ModelAuditTrailSummary :=
  match s.entries with
  | [] => .ok { sessionId := s.sessionId, totalDecisions := 0 }
  | first :: _ => do
    let decisionsByOutcome :=
      s.indexByOutcome.foldl (fun d group => dictSet d group.1 group.2.length) []
    let decisionsBySource :=
      s.indexBySource.foldl (fun d group => dictSet d (sourceKey group.1) group.2.length) []
    let found ← s.entries.foldlM aggregate
      { firstDecisionAt := first.decision.timestamp
        lastDecisionAt := first.decision.timestamp }
    return {
      sessionId := s.sessionId
      totalDecisions := s.entries.length
      decisionsByOutcome, decisionsBySource
      decisionsByMode := found.decisionsByMode
      firstDecisionAt := some found.firstDecisionAt
      lastDecisionAt := some found.lastDecisionAt
      blockedEffects := sortedAsc id found.blockedEffects }

end ServiceAuditTrail

/-! ## Runs -/

inductive TrailCall
  | record (id : UUID) (decision : ModelEnforcementDecision) (context : Option JsonDict)
  | clear

def TrailCall.apply (s : ServiceAuditTrail) : TrailCall → ServiceAuditTrail
  | .record id decision context => s.record id decision context
  | .clear => s.clear

def trailAfter (sessionId : UUID) (maxEntries : Option ℤ) (calls : List TrailCall) :
    ServiceAuditTrail :=
  calls.foldl TrailCall.apply { sessionId, maxEntries }

end OmnibaseCore.Replay
