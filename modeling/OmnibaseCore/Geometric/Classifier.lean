import OmnibaseCore.Geometric.Similarity

/-!
# The geometric conflict classifier

`classify` and `recommend_resolution` of `GeometricConflictClassifier`, with the contradiction
rule `_values_contradict`.
-/

namespace OmnibaseCore.Geometric

/-! ## Contradictions -/

def contradictoryPairs : List (String × String) := [
  ("enable", "disable"),
  ("allow", "deny"),
  ("yes", "no"),
  ("on", "off"),
  ("true", "false"),
  ("accept", "reject"),
  ("approve", "deny"),
  ("approve", "reject"),
  ("include", "exclude")]

/-- `a.lower().strip()`. -/
def folded (i : ClassifierInterpreter) (s : String) : String := strip (i.text.lower s)

/-- The first two tests of `_values_contradict`: booleans and texts. -/
def directlyContradict (i : ClassifierInterpreter) : AgentValue → AgentValue → Bool
  | .bool a, .bool b => a ≠ b
  | .str a, .str b =>
    (folded i a, folded i b) ∈ contradictoryPairs || (folded i b, folded i a) ∈ contradictoryPairs
  | _, _ => false

/-- The test of `_values_contradict` for dictionaries: `contradictions` of `common` keys. -/
def ratioRule (contradictions common : ℕ) : Bool :=
  if contradictions = 0 then false
  else if common ≤ 2 then true
  else (1 / 2 : ℚ) < contradictions / common

def valuesContradict (i : ClassifierInterpreter) : ℕ → AgentValue → AgentValue → Bool
  | 0, .dict _, .dict _ => false
  | depthLeft + 1, .dict a, .dict b =>
    let common := commonKeys a b
    if common = [] then false
    else
      ratioRule (common.countP fun k => valuesContradict i depthLeft (Entries.get a k)
        (Entries.get b k))
        common.length
  | _, a, b => directlyContradict i a b

/-- The pairs of two loops over `i` and over `j > i`. -/
def agentPairs {α : Type} : List α → List (α × α)
  | [] => []
  | a :: rest => rest.map (fun b => (a, b)) ++ agentPairs rest

def areContradictory (i : ClassifierInterpreter) (values : List (String × AgentValue)) : Bool :=
  (agentPairs (values.map Prod.snd)).any fun p => valuesContradict i maxRecursionDepth p.1 p.2

/-! ## Other axes -/

/-- The keys whose values differ from the base, `base.get(k) != value.get(k)`. -/
def changedKeys (i : ClassifierInterpreter) (base value : Entries) : List String :=
  (allKeys base value).filter fun k => !(base.get k).eq i (value.get k)

def dictValues (values : List (String × AgentValue)) : List Entries :=
  values.filterMap fun e => match e.2 with | .dict entries => some entries | _ => none

def areOrthogonal (i : ClassifierInterpreter) (baseValue : AgentValue)
    (values : List (String × AgentValue)) : Bool :=
  match baseValue with
  | .dict base =>
    if (dictValues values).length ≠ values.length then false
    else
      let changed := (dictValues values).map (changedKeys i base)
      if changed.all List.isEmpty then false
      else (agentPairs changed).all fun p => p.1.all (· ∉ p.2)
  | _ => false

def computeStructuralSimilarity (values : List (String × AgentValue)) : Option ℚ :=
  let dicts := dictValues values
  if dicts.length < 2 then none
  else some (mean ((agentPairs dicts).map fun p =>
    if allKeys p.1 p.2 = [] then 1
    else (commonKeys p.1 p.2).length / (allKeys p.1 p.2).length))

def computeSemanticSimilarity (i : ClassifierInterpreter) (values : List (String × AgentValue)) :
    Except PyException (Option ℚ) :=
  let dicts := dictValues values
  if dicts.length < 2 then .ok none
  else do
    let similarities ← (agentPairs dicts).mapM fun p =>
      let common := commonKeys p.1 p.2
      if common = [] then pure 0
      else do
        let valueSims ← common.mapM fun k =>
          computeSimilarity i maxRecursionDepth (p.1.get k) (p.2.get k)
        pure (mean valueSims)
    return some (mean similarities)

def computeAffectedFields (i : ClassifierInterpreter) (baseValue : AgentValue)
    (values : List (String × AgentValue)) : List String :=
  match baseValue with
  | .dict base => sortedAsc id ((dictValues values).flatMap (changedKeys i base)).dedup
  | _ => []

/-! ## Classification -/

/-- `EnumMergeConflictType`, the geometric members. -/
inductive EnumMergeConflictType
  | orthogonal
  | lowConflict
  | identical
  | opposite
  | conflicting
  | ambiguous
deriving DecidableEq

def EnumMergeConflictType.value : EnumMergeConflictType → String
  | .orthogonal => "orthogonal"
  | .lowConflict => "low_conflict"
  | .identical => "identical"
  | .opposite => "opposite"
  | .conflicting => "conflicting"
  | .ambiguous => "ambiguous"

def humanApprovalRequiredTypes : List EnumMergeConflictType := [.opposite, .ambiguous]

/-- A score, `ge=0.0` and `le=1.0`. -/
def IsScore (q : ℚ) : Prop := 0 ≤ q ∧ q ≤ 1

instance (q : ℚ) : Decidable (IsScore q) := inferInstanceAs (Decidable (_ ∧ _))

/-- `ModelGeometricConflictDetails`, as the classifier fills it in. -/
structure ModelGeometricConflictDetails where
  conflictType : EnumMergeConflictType
  similarityScore : ℚ
  confidence : ℚ
  structuralSimilarity : Option ℚ
  semanticSimilarity : Option ℚ
  explanation : String
  affectedFields : List String
  scores : IsScore similarityScore ∧ IsScore confidence ∧
    (∀ q ∈ structuralSimilarity, IsScore q) ∧ ∀ q ∈ semanticSimilarity, IsScore q

def confidenceScale : EnumMergeConflictType → ℚ
  | .identical => 1
  | .orthogonal => 90 / 100
  | .lowConflict => 85 / 100
  | .conflicting => 70 / 100
  | .opposite => 85 / 100
  | .ambiguous => 50 / 100

def computeConfidence (similarities : List ℚ) (conflictType : EnumMergeConflictType) : ℚ :=
  match similarities with
  | [] => 1
  | first :: rest =>
    let spread := if rest = [] then 0 else rest.foldl max first - rest.foldl min first
    max 0 (min 1 ((1 - spread) * confidenceScale conflictType))

def identicalThreshold : ℚ := 99 / 100

def highSimilarityThreshold : ℚ := 85 / 100

def conflictingThreshold : ℚ := 50 / 100

/-- The cascade of `classify`. -/
def conflictTypeOf (contradictory orthogonal : Bool) (avgSimilarity : ℚ) : EnumMergeConflictType :=
  if contradictory then .opposite
  else if identicalThreshold ≤ avgSimilarity then .identical
  else if orthogonal then .orthogonal
  else if highSimilarityThreshold ≤ avgSimilarity then .lowConflict
  else if conflictingThreshold ≤ avgSimilarity then .conflicting
  else .ambiguous

/-- The explanation of each branch, without the similarity in parentheses. -/
def explanationOf (agents : ℕ) : EnumMergeConflictType → String
  | .opposite => "Agents produced contradictory conclusions"
  | .identical => "All " ++ toString agents ++ " agents produced effectively identical output"
  | .orthogonal => "Agents modified non-overlapping aspects"
  | .lowConflict => "Minor differences between agent outputs"
  | .conflicting => "Partial overlap between agent outputs requires resolution"
  | .ambiguous => "Cannot determine clear relationship between agent outputs"

def pairwiseSimilarities (i : ClassifierInterpreter) (values : List (String × AgentValue)) :
    Except PyException (List ℚ) :=
  (agentPairs (values.map Prod.snd)).mapM fun p => computeSimilarity i maxRecursionDepth p.1 p.2

def classify (i : ClassifierInterpreter) (baseValue : AgentValue)
    (values : List (String × AgentValue)) : Except PyException ModelGeometricConflictDetails := do
  if values.length < 2 then
    .error (.valueError ("classify() requires at least 2 agent values, got " ++
      toString values.length))
  let pairwise ← pairwiseSimilarities i values
  let avgSimilarity := mean pairwise
  let structural := computeStructuralSimilarity values
  let semantic ← computeSemanticSimilarity i values
  let affectedFields := computeAffectedFields i baseValue values
  let conflictType := conflictTypeOf (areContradictory i values) (areOrthogonal i baseValue values)
    avgSimilarity
  let confidence := computeConfidence pairwise conflictType
  if h : IsScore avgSimilarity ∧ IsScore confidence ∧ (∀ q ∈ structural, IsScore q) ∧
      ∀ q ∈ semantic, IsScore q then
    return {
      conflictType
      similarityScore := avgSimilarity
      confidence
      structuralSimilarity := structural
      semanticSimilarity := semantic
      explanation := explanationOf values.length conflictType ++ " (similarity=" ++
        i.threeDecimals avgSimilarity ++ ")"
      affectedFields
      scores := h }
  else .error (.validationError "ModelGeometricConflictDetails")

/-! ## Recommendation -/

def overlapError (i : ClassifierInterpreter) (values : List (String × AgentValue)) :
    Option PyException :=
  let agentKeys := values.map fun e =>
    (e.1, match e.2 with | .dict entries => Entries.keys entries | _ => [])
  ((agentPairs agentKeys).find? fun p => p.1.2.any (· ∈ p.2.2)).map fun p =>
    .valueError ("ORTHOGONAL merge requires disjoint keys, but agents '" ++ p.1.1 ++ "' and '" ++
      p.2.1 ++ "' overlap on: " ++ i.reprStrs (sortedAsc id (p.1.2.filter (· ∈ p.2.2))))

/-- `merged.update(value)` for a dictionary. -/
def updateEntries (merged value : Entries) : Entries :=
  value.foldl (fun merged e =>
    if e.1 ∈ merged.keys then merged.map fun e' => if e'.1 = e.1 then e else e'
    else merged ++ [e]) merged

/-- `values[0]`. -/
def firstAgent (values : List (String × AgentValue)) :
    Except PyException (String × AgentValue) :=
  match values with
  | [] => .error (.other "IndexError" "list index out of range")
  | e :: _ => .ok e

def recommendResolution (i : ClassifierInterpreter) (details : ModelGeometricConflictDetails)
    (values : List (String × AgentValue)) : Except PyException (AgentValue × String) :=
  if details.conflictType ∈ humanApprovalRequiredTypes then
    .error (.valueError ("Cannot recommend resolution for " ++ details.conflictType.value ++
      " conflicts. Human approval required (GI-3)."))
  else
    match details.conflictType with
    | .identical => do
      let first ← firstAgent values
      return (first.2, "All agents produced identical output")
    | .orthogonal =>
      if (dictValues values).length = values.length then
        match overlapError i values with
        | some e => .error e
        | none =>
          .ok (.dict ((dictValues values).foldl updateEntries []),
            "Merged non-overlapping changes from all agents")
      else do
        let first ← firstAgent values
        return (first.2, "Selected output from " ++ first.1 ++ " (non-dict orthogonal)")
    | .lowConflict => do
      let first ← firstAgent values
      return (first.2, "Selected output from " ++ first.1 ++ " (highest priority, advisory)")
    | .conflicting => do
      let first ← firstAgent values
      return (first.2, "Selected output from " ++ first.1 ++ " (advisory, conflicts exist)")
    | conflictType =>
      .error (.valueError ("Unexpected conflict type: " ++ conflictType.value))

end OmnibaseCore.Geometric
