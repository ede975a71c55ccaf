import OmnibaseCore.Geometric.MergeTheorems
import OmnibaseCore.Geometric.SimilarityTheorems

/-!
# The order of the agents

Every part of a classification is made from the pairs of agents by something that does not see
their order: a sum, a maximum, an "any". So a classification of the outputs in another order
is the same (`classify_perm`), as the docstring of the classifier has it.
-/

namespace OmnibaseCore.Geometric

variable {i : ClassifierInterpreter} {objects : Prop} {baseValue : AgentValue}
  {values values' : List (String × AgentValue)}

/-! ## Pairs of a list in another order -/

theorem map_agentPairs_perm {α β : Type} {l l' : List α} {g : α × α → β}
    (hg : ∀ a ∈ l, ∀ b ∈ l, g (a, b) = g (b, a)) (h : l.Perm l') :
    ((agentPairs l).map g).Perm ((agentPairs l').map g) := by
  induction h with
  | nil => exact List.Perm.nil
  | cons a h ih =>
    rw [agentPairs, agentPairs, List.map_append, List.map_append]
    refine ((h.map _).map g).append (ih fun a ha b hb => ?_)
    exact hg a (List.mem_cons_of_mem _ ha) b (List.mem_cons_of_mem _ hb)
  | swap a b l =>
    have hpair : g (b, a) = g (a, b) := hg b (by simp) a (by simp)
    simp only [agentPairs, List.map_cons, List.cons_append, List.map_append, hpair]
    refine List.Perm.cons _ ?_
    rw [← List.append_assoc, ← List.append_assoc]
    exact List.perm_append_comm.append_right _
  | trans h₁ h₂ ih₁ ih₂ =>
    exact (ih₁ hg).trans (ih₂ fun a ha b hb =>
      hg a (h₁.mem_iff.mpr ha) b (h₁.mem_iff.mpr hb))

theorem exists_mapM_agentPairs {α β : Type} {l l' : List α} {f : α × α → Except PyException β}
    {results : List β} (hf : ∀ a ∈ l, ∀ b ∈ l, ∀ r, f (a, b) = .ok r → f (b, a) = .ok r)
    (h : l.Perm l') (hresults : (agentPairs l).mapM f = .ok results) :
    ∃ results', (agentPairs l').mapM f = .ok results' ∧ results.Perm results' := by
  refine exists_mapM_of_perm (map_agentPairs_perm (fun a ha b hb => ?_) h) hresults
  cases hab : f (a, b) with
  | ok r => rw [hf a ha b hb r hab]
  | error e =>
    cases hba : f (b, a) with
    | ok r =>
      rw [hf b hb a ha r hba] at hab
      exact nomatch hab
    | error e' => rfl

variable {α : Type}

theorem any_agentPairs_perm {l l' : List α} {p : α × α → Bool}
    (hp : ∀ a ∈ l, ∀ b ∈ l, p (a, b) = p (b, a)) (h : l.Perm l') :
    (agentPairs l).any p = (agentPairs l').any p := by
  have hmap := map_agentPairs_perm hp h
  have hany : ∀ l : List α, (agentPairs l).any p = ((agentPairs l).map p).any id := by
    intro l
    rw [List.any_map]
    rfl
  rw [hany, hany, Bool.eq_iff_iff, List.any_eq_true, List.any_eq_true]
  simp only [hmap.mem_iff]

theorem all_agentPairs_perm {l l' : List α} {p : α × α → Bool}
    (hp : ∀ a ∈ l, ∀ b ∈ l, p (a, b) = p (b, a)) (h : l.Perm l') :
    (agentPairs l).all p = (agentPairs l').all p := by
  have hnot := any_agentPairs_perm (p := fun x => !p x)
    (fun a ha b hb => congrArg not (hp a ha b hb)) h
  rw [List.all_eq_not_any_not, List.all_eq_not_any_not, hnot]

/-! ## What is made of the pairs -/

theorem mean_perm {l l' : List ℚ} (h : l.Perm l') : mean l = mean l' := by
  unfold mean
  rw [h.sum_eq, h.length_eq]

theorem foldl_max_spec [LinearOrder α] (first : α) (rest : List α) :
    rest.foldl max first ∈ first :: rest ∧ ∀ x ∈ first :: rest, x ≤ rest.foldl max first := by
  induction rest generalizing first with
  | nil => exact ⟨List.mem_cons_self, by simp⟩
  | cons y rest ih =>
    obtain ⟨hmem, hle⟩ := ih (max first y)
    rw [List.foldl_cons]
    constructor
    · rcases List.mem_cons.mp hmem with heq | hmem
      · rw [heq]
        rcases max_choice first y with h | h
        · rw [h]
          exact List.mem_cons_self
        · rw [h]
          exact List.mem_cons_of_mem _ List.mem_cons_self
      · exact List.mem_cons_of_mem _ (List.mem_cons_of_mem _ hmem)
    · have hmax := hle _ List.mem_cons_self
      rw [List.forall_mem_cons, List.forall_mem_cons]
      exact ⟨(le_max_left first y).trans hmax, (le_max_right first y).trans hmax,
        fun x hx => hle x (List.mem_cons_of_mem _ hx)⟩

theorem foldl_max_perm [LinearOrder α] {first first' : α} {rest rest' : List α}
    (h : (first :: rest).Perm (first' :: rest')) :
    rest.foldl max first = rest'.foldl max first' := by
  obtain ⟨hmem, hle⟩ := foldl_max_spec first rest
  obtain ⟨hmem', hle'⟩ := foldl_max_spec first' rest'
  exact le_antisymm (hle' _ (h.mem_iff.mp hmem)) (hle _ (h.mem_iff.mpr hmem'))

theorem computeConfidence_perm {l l' : List ℚ} (h : l.Perm l') (t : EnumMergeConflictType) :
    computeConfidence l t = computeConfidence l' t := by
  cases l with
  | nil => rw [h.nil_eq]
  | cons first rest =>
    cases l' with
    | nil => exact absurd h.eq_nil (List.cons_ne_nil _ _)
    | cons first' rest' =>
      have hmax := foldl_max_perm h
      -- the smallest is the largest in the reverse order
      have hmin : rest.foldl min first = rest'.foldl min first' :=
        foldl_max_perm (α := ℚᵒᵈ) h
      have hnil : rest = [] ↔ rest' = [] := by
        have hlength := h.length_eq
        rw [List.length_cons, List.length_cons] at hlength
        rw [← List.length_eq_zero_iff, ← List.length_eq_zero_iff]
        omega
      unfold computeConfidence
      dsimp only
      rw [hmax, hmin]
      simp only [hnil]

/-! ## Contradictions -/

theorem directlyContradict_symm (a b : AgentValue) :
    directlyContradict i a b = directlyContradict i b a := by
  cases a with
  | bool x =>
    cases b with
    | bool y => exact decide_eq_decide.mpr ne_comm
    | _ => rfl
  | str s =>
    cases b with
    | str t => exact Bool.or_comm _ _
    | _ => rfl
  | _ => cases b <;> rfl

theorem valuesContradict_of_not_dict {depthLeft : ℕ} {a b : AgentValue}
    (h : ∀ l m, a = .dict l → b ≠ .dict m) :
    valuesContradict i depthLeft a b = directlyContradict i a b := by
  unfold valuesContradict
  split
  · exact absurd rfl (h _ _ rfl)
  · exact absurd rfl (h _ _ rfl)
  · rfl

theorem valuesContradict_symm {depthLeft : ℕ} {a b : AgentValue} (ha : a.Proper objects)
    (hb : b.Proper objects) :
    valuesContradict i depthLeft a b = valuesContradict i depthLeft b a := by
  induction depthLeft generalizing a b with
  | zero =>
    by_cases hdict : ∃ l m, a = .dict l ∧ b = .dict m
    · obtain ⟨l, m, rfl, rfl⟩ := hdict
      rfl
    · rw [valuesContradict_of_not_dict fun l m hl hm => hdict ⟨l, m, hl, hm⟩,
        valuesContradict_of_not_dict fun m l hm hl => hdict ⟨l, m, hl, hm⟩,
        directlyContradict_symm]
  | succ depthLeft ih =>
    by_cases hdict : ∃ l m, a = .dict l ∧ b = .dict m
    · obtain ⟨l, m, rfl, rfl⟩ := hdict
      have hcount : (commonKeys m l).countP (fun k =>
          valuesContradict i depthLeft (Entries.get l k) (Entries.get m k))
            = (commonKeys m l).countP fun k =>
              valuesContradict i depthLeft (Entries.get m k) (Entries.get l k) := by
        apply List.countP_congr
        intro k _
        rw [ih (ha.get k) (hb.get k)]
      rw [valuesContradict, valuesContradict, commonKeys_symm ha.nodup_keys hb.nodup_keys, hcount]
    · rw [valuesContradict_of_not_dict fun l m hl hm => hdict ⟨l, m, hl, hm⟩,
        valuesContradict_of_not_dict fun m l hm hl => hdict ⟨l, m, hl, hm⟩,
        directlyContradict_symm]

/-! ## Outputs in another order -/

def ProperOutputs (values : List (String × AgentValue)) : Prop :=
  ∀ e ∈ values, e.2.Proper True

theorem dictValues_perm (h : values.Perm values') :
    (dictValues values).Perm (dictValues values') :=
  h.filterMap _

section
variable (hvalues : ProperOutputs values) (hperm : values.Perm values')
include hvalues

theorem proper_of_mem_dictValues {entries : Entries} (h : entries ∈ dictValues values) :
    (AgentValue.dict entries).Proper True := by
  unfold dictValues at h
  obtain ⟨e, he, heq⟩ := List.mem_filterMap.mp h
  have hproper := hvalues e he
  cases hv : e.2 with
  | dict entries' =>
    rw [hv] at heq hproper
    rw [← Option.some.inj heq]
    exact hproper
  | _ =>
    rw [hv] at heq
    exact nomatch heq

theorem proper_of_mem_map_snd {v : AgentValue} (h : v ∈ values.map Prod.snd) : v.Proper True := by
  obtain ⟨e, he, rfl⟩ := List.mem_map.mp h
  exact hvalues e he

include hperm

theorem areContradictory_perm : areContradictory i values = areContradictory i values' :=
  any_agentPairs_perm (fun _ ha _ hb => valuesContradict_symm
    (proper_of_mem_map_snd hvalues ha) (proper_of_mem_map_snd hvalues hb)) (hperm.map Prod.snd)

theorem computeStructuralSimilarity_perm :
    computeStructuralSimilarity values = computeStructuralSimilarity values' := by
  have hdicts := dictValues_perm hperm
  unfold computeStructuralSimilarity
  dsimp only
  rw [hdicts.length_eq]
  congr 2
  refine mean_perm (map_agentPairs_perm (fun l hl m hm => ?_) hdicts)
  have hlkeys := (proper_of_mem_dictValues hvalues hl).nodup_keys
  have hmkeys := (proper_of_mem_dictValues hvalues hm).nodup_keys
  have hall := perm_allKeys_symm hlkeys hmkeys
  have hnil : allKeys l m = [] ↔ allKeys m l = [] := by
    rw [← List.length_eq_zero_iff, hall.length_eq, List.length_eq_zero_iff]
  dsimp only
  rw [commonKeys_symm hlkeys hmkeys, hall.length_eq]
  simp only [hnil]

omit hvalues in
theorem areOrthogonal_perm :
    areOrthogonal i baseValue values = areOrthogonal i baseValue values' := by
  have hdicts := dictValues_perm hperm
  unfold areOrthogonal
  cases baseValue with
  | dict base =>
    dsimp only
    have hchanged := hdicts.map (changedKeys i base)
    have hpairs := all_agentPairs_perm (p := fun p => p.1.all (· ∉ p.2))
      (fun a _ b _ => by
        rw [Bool.eq_iff_iff, List.all_eq_true, List.all_eq_true]
        simp only [decide_eq_true_eq]
        exact ⟨fun h k hk hk' => h k hk' hk, fun h k hk hk' => h k hk' hk⟩) hchanged
    rw [hdicts.length_eq, hperm.length_eq, hpairs, hchanged.all_eq]
  | _ => rfl

omit hvalues in
theorem computeAffectedFields_perm :
    computeAffectedFields i baseValue values = computeAffectedFields i baseValue values' := by
  unfold computeAffectedFields
  cases baseValue with
  | dict base =>
    exact sortedAsc_eq_of_perm id Function.injective_id
      ((dictValues_perm hperm).flatMap_right _).dedup
  | _ => rfl

/-! ## Classifications in another order -/

variable (hobjects : ∀ a b, i.eqObj a b = i.eqObj b a)
include hobjects

theorem pairwiseSimilarities_perm {similarities : List ℚ}
    (h : pairwiseSimilarities i values = .ok similarities) :
    ∃ similarities', pairwiseSimilarities i values' = .ok similarities' ∧
      similarities.Perm similarities' :=
  exists_mapM_agentPairs (fun _ ha _ hb _ hr => computeSimilarity_symm (fun _ => hobjects)
    (proper_of_mem_map_snd hvalues ha) (proper_of_mem_map_snd hvalues hb) hr)
    (hperm.map Prod.snd) h

theorem computeSemanticSimilarity_perm {semantic : Option ℚ}
    (h : computeSemanticSimilarity i values = .ok semantic) :
    computeSemanticSimilarity i values' = .ok semantic := by
  have hdicts := dictValues_perm hperm
  unfold computeSemanticSimilarity at h ⊢
  dsimp only at h ⊢
  rw [← hdicts.length_eq]
  by_cases htwo : (dictValues values).length < 2
  · rw [if_pos htwo] at h ⊢
    exact h
  · rw [if_neg htwo] at h ⊢
    rcases bind_eq_ok h with ⟨similarities, hsimilarities, h⟩
    have hpairs := exists_mapM_agentPairs (fun l hl m hm r hr => ?_) hdicts hsimilarities
    · obtain ⟨similarities', hsimilarities', hsame⟩ := hpairs
      rw [hsimilarities', ← h, mean_perm hsame]
      rfl
    · have hlproper := proper_of_mem_dictValues hvalues hl
      have hmproper := proper_of_mem_dictValues hvalues hm
      dsimp only at hr ⊢
      rw [← commonKeys_symm hlproper.nodup_keys hmproper.nodup_keys]
      by_cases hcommon : commonKeys l m = []
      · rw [if_pos hcommon] at hr ⊢
        exact hr
      · rw [if_neg hcommon] at hr ⊢
        rcases bind_eq_ok hr with ⟨sims, hsims, hr⟩
        rw [mapM_ok_of_imp (fun k _ r hr => computeSimilarity_symm (fun _ => hobjects)
          (hlproper.get k) (hmproper.get k) hr) hsims]
        exact hr

theorem classify_ok_of_perm {details : ModelGeometricConflictDetails}
    (h : classify i baseValue values = .ok details) :
    classify i baseValue values' = .ok details := by
  rw [classify_eq_ok_iff] at h ⊢
  rcases h with ⟨htwo, similarities, hpairwise, hsemantic, hresult⟩
  obtain ⟨similarities', hpairwise', hsame⟩ :=
    pairwiseSimilarities_perm hvalues hperm hobjects hpairwise
  refine ⟨hperm.length_eq ▸ htwo, similarities', hpairwise',
    computeSemanticSimilarity_perm hvalues hperm hobjects hsemantic, ?_⟩
  rw [← mean_perm hsame, ← computeStructuralSimilarity_perm hvalues hperm,
    ← computeAffectedFields_perm hperm, ← areContradictory_perm hvalues hperm,
    ← areOrthogonal_perm hperm, ← computeConfidence_perm hsame, ← hperm.length_eq]
  exact hresult

/-- The outputs in another order have the same classification. -/
theorem classify_perm (details : ModelGeometricConflictDetails) :
    classify i baseValue values = .ok details ↔ classify i baseValue values' = .ok details :=
  ⟨classify_ok_of_perm hvalues hperm hobjects,
    classify_ok_of_perm (fun e he => hvalues e (hperm.mem_iff.mpr he)) hperm.symm hobjects⟩

end

/-- The two agents that add a field each, the second one first. -/
theorem classify_additions_swap :
    ∃ details, classify asciiClassifier (.dict []) additions = .ok details ∧
      classify asciiClassifier (.dict []) additions.reverse = .ok details := by
  have htype : (classify asciiClassifier (.dict []) additions).map (·.conflictType)
      = .ok .orthogonal := by decide +kernel
  have hproper : ∀ e ∈ additions, e.2.Proper True := by
    simp only [additions, List.mem_cons, List.not_mem_nil, or_false]
    rintro e (rfl | rfl)
    · exact .dict (by decide) (by simp [AgentValue.Proper.str])
    · exact .dict (by decide) (by simp [AgentValue.Proper.str])
  rcases map_eq_ok htype with ⟨details, hclassify, -⟩
  exact ⟨details, hclassify, (classify_perm hproper (List.reverse_perm additions).symm
    (fun _ _ => rfl) details).mp hclassify⟩

end OmnibaseCore.Geometric
