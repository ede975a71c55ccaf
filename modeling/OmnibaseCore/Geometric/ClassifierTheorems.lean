import OmnibaseCore.Geometric.Classifier
import OmnibaseCore.Geometric.Disagreement

/-!
# Contradictions and the classification `identical`

`notIdentical_iff` says for which outputs a contradiction at a key is not classified as
`identical`: the rule for dictionaries fires on some pair of agents, or the pairs lie far enough
apart. The two thresholds leave a gap, see `modes_identical`.
-/

namespace OmnibaseCore.Geometric

variable {i : ClassifierInterpreter} {baseValue : AgentValue}
  {values : List (String × AgentValue)} {details : ModelGeometricConflictDetails}

/-! ## Pairs of agents -/

/-- Two agents whose dictionaries hold, at a common key, directly contradictory values. -/
def ContradictAtKey (i : ClassifierInterpreter) (values : List (String × AgentValue)) : Prop :=
  ∃ (m n : ℕ) (agentA agentB : String) (a b : Entries) (key : String), m < n ∧
    values[m]? = some (agentA, .dict a) ∧ values[n]? = some (agentB, .dict b) ∧
    key ∈ a.keys ∧ key ∈ b.keys ∧ directlyContradict i (a.get key) (b.get key) = true

/-! ## The rule for dictionaries -/

def contradictoryKeys (i : ClassifierInterpreter) (a b : Entries) : List String :=
  (commonKeys a b).filter fun k =>
    valuesContradict i (maxRecursionDepth - 1) (a.get k) (b.get k)

/-- When the outputs of two agents count as contradictory: dictionaries if they contradict each
other at some key and have at most two keys in common, or at more than half of the common
keys. -/
def RuleFires (i : ClassifierInterpreter) : AgentValue → AgentValue → Prop
  | .dict a, .dict b => contradictoryKeys i a b ≠ [] ∧
      ((commonKeys a b).length ≤ 2 ∨
        (commonKeys a b).length < 2 * (contradictoryKeys i a b).length)
  | a, b => directlyContradict i a b = true

theorem ratioRule_iff {contradictions common : ℕ} (h : contradictions ≤ common) :
    ratioRule contradictions common = true ↔
      contradictions ≠ 0 ∧ (common ≤ 2 ∨ common < 2 * contradictions) := by
  unfold ratioRule
  by_cases hzero : contradictions = 0
  · rw [if_pos hzero]
    simp [hzero]
  · rw [if_neg hzero]
    have hpos : (0 : ℚ) < common := by
      have : 0 < common := by omega
      exact_mod_cast this
    by_cases hsmall : common ≤ 2
    · simp [hsmall, hzero]
    · rw [if_neg hsmall, decide_eq_true_eq, lt_div_iff₀ hpos]
      have hcast : (1 / 2 * (common : ℚ) < contradictions) ↔ common < 2 * contradictions := by
        constructor
        · intro hlt
          have : (common : ℚ) < ((2 * contradictions : ℕ) : ℚ) := by
            push_cast
            linarith
          exact_mod_cast this
        · intro hlt
          have : (common : ℚ) < ((2 * contradictions : ℕ) : ℚ) := by exact_mod_cast hlt
          push_cast at this
          linarith
      rw [hcast]
      simp [hzero, hsmall]

theorem valuesContradict_iff {a b : AgentValue} :
    valuesContradict i maxRecursionDepth a b = true ↔ RuleFires i a b := by
  have hdepth : maxRecursionDepth = (maxRecursionDepth - 1) + 1 := rfl
  rw [hdepth]
  cases a with
  | dict a =>
    cases b with
    | dict b =>
      unfold valuesContradict RuleFires contradictoryKeys
      simp only [List.countP_eq_length_filter]
      by_cases hcommon : commonKeys a b = []
      · simp [hcommon]
      · simp only [hcommon, if_false]
        rw [ratioRule_iff (List.length_filter_le _ _), ← List.length_pos_iff_ne_nil]
        simp only [Nat.pos_iff_ne_zero]
    | _ => rfl
  | _ => cases b <;> rfl

theorem areContradictory_iff :
    areContradictory i values = true ↔
      ∃ p ∈ agentPairs (values.map Prod.snd), RuleFires i p.1 p.2 := by
  unfold areContradictory
  rw [List.any_eq_true]
  simp only [valuesContradict_iff]

/-! ## The classification -/

theorem conflictTypeOf_ne_identical_iff {contradictory orthogonal : Bool} {avgSimilarity : ℚ} :
    conflictTypeOf contradictory orthogonal avgSimilarity ≠ .identical ↔
      contradictory = true ∨ avgSimilarity < identicalThreshold := by
  unfold conflictTypeOf
  by_cases hcontradictory : contradictory = true
  · rw [if_pos hcontradictory]
    simp [hcontradictory]
  · rw [if_neg hcontradictory]
    by_cases hidentical : identicalThreshold ≤ avgSimilarity
    · rw [if_pos hidentical]
      simp [hcontradictory, hidentical]
    · rw [if_neg hidentical]
      have hlt : avgSimilarity < identicalThreshold := not_le.mp hidentical
      refine ⟨fun _ => Or.inr hlt, fun _ => ?_⟩
      split_ifs <;> decide

/-- The fields of the details, where a conflict is classified. -/
theorem classify_eq_ok_iff : classify i baseValue values = .ok details ↔
    2 ≤ values.length ∧ ∃ similarities, pairwiseSimilarities i values = .ok similarities ∧
      computeSemanticSimilarity i values = .ok details.semanticSimilarity ∧
      details.similarityScore = mean similarities ∧
      details.structuralSimilarity = computeStructuralSimilarity values ∧
      details.affectedFields = computeAffectedFields i baseValue values ∧
      details.conflictType = conflictTypeOf (areContradictory i values)
        (areOrthogonal i baseValue values) (mean similarities) ∧
      details.confidence = computeConfidence similarities details.conflictType ∧
      details.explanation = explanationOf values.length details.conflictType ++
        " (similarity=" ++ i.threeDecimals (mean similarities) ++ ")" := by
  unfold classify
  constructor
  · intro h
    by_cases hlength : values.length < 2
    · rw [if_pos hlength] at h
      exact nomatch h
    rw [if_neg hlength] at h
    rcases bind_eq_ok h with ⟨similarities, hpairwise, h⟩
    rcases bind_eq_ok h with ⟨semantic, hsemantic, h⟩
    refine ⟨not_lt.mp hlength, similarities, hpairwise, ?_⟩
    dsimp only at h
    split at h
    · rw [← Except.ok.inj h]
      exact ⟨hsemantic, rfl, rfl, rfl, rfl, rfl, rfl⟩
    · exact nomatch h
  · rintro ⟨hlength, similarities, hpairwise, hsemantic, hscore, hstructural, hfields, htype,
      hconfidence, hexplanation⟩
    have hscores := details.scores
    rw [if_neg (not_lt.mpr hlength), hpairwise, hsemantic]
    rw [hscore, hconfidence, hstructural, htype] at hscores
    refine (dif_pos hscores).trans (congrArg Except.ok ?_)
    cases details
    dsimp only at hscore hstructural hfields htype hconfidence hexplanation
    subst htype hscore hstructural hfields hconfidence hexplanation
    rfl

theorem classify_ok (h : classify i baseValue values = .ok details) :
    2 ≤ values.length ∧ ∃ similarities, pairwiseSimilarities i values = .ok similarities ∧
      details.conflictType = conflictTypeOf (areContradictory i values)
        (areOrthogonal i baseValue values) (mean similarities) := by
  rcases classify_eq_ok_iff.mp h with ⟨htwo, similarities, hpairwise, -, -, -, -, htype, -⟩
  exact ⟨htwo, similarities, hpairwise, htype⟩

theorem length_agentPairs_pos {α : Type} {l : List α} (h : 2 ≤ l.length) :
    0 < (agentPairs l).length := by
  match l with
  | a :: b :: rest =>
    unfold agentPairs
    simp

/-- The mean of what some numbers leave of one, and the sum of the numbers. -/
theorem mean_map_one_sub_lt_iff {α : Type} {items : List α} (hpos : 0 < items.length)
    (f : α → ℚ) : mean (items.map fun x => 1 - f x) < identicalThreshold ↔
      (items.length : ℚ) < 100 * (items.map f).sum := by
  have hcast : (0 : ℚ) < items.length := by exact_mod_cast hpos
  rw [mean_one_sub (List.ne_nil_of_length_pos hpos)]
  unfold mean identicalThreshold
  rw [List.length_map, sub_lt_comm, lt_div_iff₀ hcast]
  constructor
  · intro h
    linarith
  · intro h
    linarith

/-! ## The recommendation -/

/-- The outputs are not taken for identical, neither by the classification nor by the
recommendation made from it. -/
structure NotIdentical (i : ClassifierInterpreter) (values : List (String × AgentValue))
    (details : ModelGeometricConflictDetails) : Prop where
  conflictType : details.conflictType ≠ .identical
  recommendation : ∀ resolution, recommendResolution i details values = .ok resolution →
    resolution.2 ≠ "All agents produced identical output"

theorem identical_of_recommendation {resolution : AgentValue × String}
    (h : recommendResolution i details values = .ok resolution)
    (htext : resolution.2 = "All agents produced identical output") :
    details.conflictType = .identical := by
  have hselected : ∀ agent rest : String,
      "Selected output from " ++ agent ++ rest ≠ "All agents produced identical output" := by
    intro agent rest heq
    have hhead := congrArg (fun s => s.toList.head?) heq
    simp at hhead
  unfold recommendResolution at h
  split at h
  · exact nomatch h
  · split at h
    · assumption
    · split at h
      · split at h
        · exact nomatch h
        · rw [← Except.ok.inj h] at htext
          simp at htext
      · rcases bind_eq_ok h with ⟨first, -, h⟩
        rw [← Except.ok.inj h] at htext
        exact absurd htext (hselected _ _)
    · rcases bind_eq_ok h with ⟨first, -, h⟩
      rw [← Except.ok.inj h] at htext
      exact absurd htext (hselected _ _)
    · rcases bind_eq_ok h with ⟨first, -, h⟩
      rw [← Except.ok.inj h] at htext
      exact absurd htext (hselected _ _)
    · exact nomatch h

theorem notIdentical_of_conflictType (h : details.conflictType ≠ .identical) :
    NotIdentical i values details :=
  ⟨h, fun _ hrecommend htext => h (identical_of_recommendation hrecommend htext)⟩

/-! ## The gap between the thresholds -/

/-- The contradiction weighs enough: the rule fires on two of the outputs, or the outputs of all
pairs of agents lie apart by more than one in a hundred pairs. -/
def Outweighed (i : ClassifierInterpreter) (values : List (String × AgentValue)) : Prop :=
  let pairs := agentPairs (values.map Prod.snd)
  (∃ p ∈ pairs, RuleFires i p.1 p.2) ∨
    pairs.length < 100 * (pairs.map fun p => disagreement i maxRecursionDepth p.1 p.2).sum

/-- The similarities are what the disagreements of the pairs leave of one. -/
theorem pairwiseSimilarities_eq {similarities : List ℚ}
    (h : pairwiseSimilarities i values = .ok similarities) :
    similarities = (agentPairs (values.map Prod.snd)).map fun p =>
      1 - disagreement i maxRecursionDepth p.1 p.2 :=
  mapM_eq_map_of_forall (fun _ _ _ => computeSimilarity_eq) h

/-- A contradiction at a key is never classified as identical if and only if it weighs enough. -/
theorem notIdentical_iff (h : classify i baseValue values = .ok details) :
    (ContradictAtKey i values → NotIdentical i values details) ↔
      (ContradictAtKey i values → Outweighed i values) := by
  rcases classify_ok h with ⟨hlength, similarities, hpairwise, htype⟩
  have hpos : 0 < (agentPairs (values.map Prod.snd)).length :=
    length_agentPairs_pos (by rwa [List.length_map])
  rw [pairwiseSimilarities_eq hpairwise] at htype
  have hiff : NotIdentical i values details ↔ Outweighed i values := by
    unfold Outweighed
    dsimp only
    rw [← mean_map_one_sub_lt_iff hpos, ← areContradictory_iff, ← conflictTypeOf_ne_identical_iff,
      ← htype]
    exact ⟨fun hnot => hnot.conflictType, notIdentical_of_conflictType⟩
  rw [hiff]

/-! ## One key of many -/

/-- The interpreter, for examples without objects of other classes. -/
def asciiClassifier : ClassifierInterpreter :=
  { text := asciiText
    eqObj := fun _ _ => false
    reprFloat := fun q => toString q
    strObj := fun cls _ => cls
    reprStrs := fun l => "[" ++ ", ".intercalate (l.map fun s => "'" ++ s ++ "'") ++ "]"
    threeDecimals := fun q => toString q }

def settings (mode : String) : AgentValue :=
  .dict (("mode", .str mode) ::
    (List.range 33).map fun n => ("option_" ++ toString (n + 10), .int n))

/-- Two agents that agree on the options and contradict each other in the mode. -/
def modes : List (String × AgentValue) :=
  [("planner", settings "include"), ("reviewer", settings "exclude")]

theorem classify_modes :
    (classify asciiClassifier .none modes).map (·.conflictType) = .ok .identical := by
  decide +kernel

theorem notIdentical_iff_modes :
    ∃ details, classify asciiClassifier .none modes = .ok details ∧
      ((ContradictAtKey asciiClassifier modes → NotIdentical asciiClassifier modes details) ↔
        (ContradictAtKey asciiClassifier modes → Outweighed asciiClassifier modes)) := by
  rcases map_eq_ok classify_modes with ⟨details, hclassify, -⟩
  exact ⟨details, hclassify, notIdentical_iff hclassify⟩

theorem contradictAtKey_modes : ContradictAtKey asciiClassifier modes :=
  ⟨0, 1, "planner", "reviewer", _, _, "mode", by decide, rfl, rfl, by simp [Entries.keys],
    by simp [Entries.keys], by decide +kernel⟩

theorem modes_identical :
    ContradictAtKey asciiClassifier modes ∧
      ∃ details, classify asciiClassifier .none modes = .ok details ∧
        ¬ NotIdentical asciiClassifier modes details := by
  rcases map_eq_ok classify_modes with ⟨details, hclassify, htype⟩
  exact ⟨contradictAtKey_modes, details, hclassify, fun h => h.conflictType htype⟩

end OmnibaseCore.Geometric
