import OmnibaseCore.Geometric.Values
import OmnibaseCore.Python.Counter
import OmnibaseCore.Python.Return

/-!
# What similarity measures

The similarities of texts and of lists are the coefficient of Dice and the index of Jaccard of
counters, so that they do not see an order. Similarity is symmetric (`computeSimilarity_symm`).
-/

namespace OmnibaseCore.Geometric

variable {i : ClassifierInterpreter} {objects : Prop}

/-! ## Texts -/

theorem intersectionSize_eq {α : Type} [DecidableEq α] (a b : List α) :
    intersectionSize a b = ((a : Multiset α) ∩ b).card := by
  unfold intersectionSize
  rw [← Counter.sum_min_count (List.nodup_dedup a)]
  · simp only [Multiset.coe_count]
  · intro x hx
    exact List.mem_dedup.mpr (Multiset.mem_coe.mp (Multiset.mem_inter.mp hx).1)

theorem stringSimilarity_of_ne {s t : String} (hne : s ≠ t)
    (hbigrams : bigrams s ≠ [] ∨ bigrams t ≠ []) :
    stringSimilarity s t = Counter.dice (bigrams s : Multiset (Char × Char)) (bigrams t) := by
  have hempty : bigrams "" = [] := rfl
  unfold stringSimilarity
  rw [if_neg hne]
  dsimp only
  split_ifs with h₁ h₂
  · unfold Counter.dice
    rcases h₁ with rfl | rfl
    · rw [hempty]
      simp
    · rw [hempty]
      simp
  · rcases hbigrams with h | h
    · exact absurd h₂.1 h
    · exact absurd h₂.2 h
  · unfold Counter.dice
    rw [intersectionSize_eq, Multiset.coe_card, Multiset.coe_card]

theorem stringSimilarity_of_short {s t : String} (hne : s ≠ t)
    (hs : bigrams s = []) (ht : bigrams t = []) : stringSimilarity s t = 0 := by
  unfold stringSimilarity
  rw [if_neg hne]
  have hboth : bigrams s = [] ∧ bigrams t = [] := ⟨hs, ht⟩
  dsimp only
  rw [if_pos hboth, ite_self]

theorem stringSimilarity_self (s : String) : stringSimilarity s s = 1 := if_pos rfl

theorem stringSimilarity_symm (s t : String) : stringSimilarity s t = stringSimilarity t s := by
  by_cases hne : s = t
  · rw [hne]
  · by_cases hshort : bigrams s = [] ∧ bigrams t = []
    · rw [stringSimilarity_of_short hne hshort.1 hshort.2,
        stringSimilarity_of_short (Ne.symm hne) hshort.2 hshort.1]
    · rw [not_and_or] at hshort
      rw [stringSimilarity_of_ne hne hshort, stringSimilarity_of_ne (Ne.symm hne) hshort.symm,
        Counter.dice_symm]

/-- A similarity: between zero and one, and one if and only if `same`. -/
structure Measures (same : Prop) (q : ℚ) : Prop where
  nonneg : 0 ≤ q
  le_one : q ≤ 1
  eq_one_iff : q = 1 ↔ same

variable {q : ℚ}

theorem Measures.congr {same same' : Prop} (h : Measures same q) (heq : same ↔ same') :
    Measures same' q :=
  ⟨h.nonneg, h.le_one, h.eq_one_iff.trans heq⟩

theorem measures_one {same : Prop} (h : same) : Measures same 1 :=
  ⟨zero_le_one, le_rfl, iff_of_true rfl h⟩

theorem measures_zero {same : Prop} (h : ¬ same) : Measures same 0 :=
  ⟨le_rfl, zero_le_one, iff_of_false zero_ne_one h⟩

theorem measures_stringSimilarity (s t : String) :
    Measures (s = t ∨ bigrams s ≠ [] ∧ (bigrams s).Perm (bigrams t)) (stringSimilarity s t) := by
  by_cases hne : s = t
  · rw [hne, stringSimilarity_self]
    exact measures_one (Or.inl rfl)
  · by_cases hs : bigrams s = []
    · have hnot : ¬ (s = t ∨ bigrams s ≠ [] ∧ (bigrams s).Perm (bigrams t)) := by
        rintro (h | h)
        · exact hne h
        · exact h.1 hs
      by_cases ht : bigrams t = []
      · rw [stringSimilarity_of_short hne hs ht]
        exact measures_zero hnot
      · rw [stringSimilarity_of_ne hne (Or.inr ht), hs]
        have hzero : Counter.dice (([] : List (Char × Char)) : Multiset (Char × Char))
            (bigrams t) = 0 := by
          unfold Counter.dice
          simp
        rw [hzero]
        exact measures_zero (hs ▸ hnot)
    · rw [stringSimilarity_of_ne hne (Or.inl hs)]
      refine ⟨Counter.dice_nonneg _ _, Counter.dice_le_one _ _, ?_⟩
      rw [Counter.dice_eq_one_iff (by simpa using hs), Multiset.coe_eq_coe, or_iff_right hne]
      exact (and_iff_right hs).symm

/-! ## Numbers -/

theorem numberSimilarity_symm (p q : ℚ) : numberSimilarity p q = numberSimilarity q p := by
  unfold numberSimilarity
  rw [abs_sub_comm, max_comm |p|]

theorem measures_numberSimilarity (p q : ℚ) : Measures (p = q) (numberSimilarity p q) := by
  have hpos : 0 < max (max |p| |q|) 1 := lt_max_of_lt_right one_pos
  have hnonneg : 0 ≤ |p - q| / max (max |p| |q|) 1 := by positivity
  unfold numberSimilarity
  refine ⟨?_, ?_, ?_⟩
  · have hle := min_le_right (|p - q| / max (max |p| |q|) 1) 1
    linarith
  · have hmin : 0 ≤ min (|p - q| / max (max |p| |q|) 1) 1 := le_min hnonneg zero_le_one
    linarith
  · have hmin : 1 - min (|p - q| / max (max |p| |q|) 1) 1 = 1 ↔
        min (|p - q| / max (max |p| |q|) 1) 1 = 0 := by
      constructor
      · intro h
        linarith
      · intro h
        rw [h, sub_zero]
    rw [hmin]
    constructor
    · intro h
      have hzero : |p - q| / max (max |p| |q|) 1 = 0 := by
        rcases min_choice (|p - q| / max (max |p| |q|) 1) 1 with hm | hm
        · rw [← hm, h]
        · rw [hm] at h
          exact absurd h one_ne_zero
      rw [div_eq_zero_iff, or_iff_left hpos.ne', abs_eq_zero, sub_eq_zero] at hzero
      exact hzero
    · rintro rfl
      rw [sub_self, abs_zero, zero_div]
      exact min_eq_left zero_le_one

/-! ## Lists -/

def itemTexts (i : ClassifierInterpreter) (depthLeft : ℕ) (l : List AgentValue) :
    Except PyException (List String) :=
  l.mapM fun v => (normalize depthLeft v).json i

variable {depthLeft : ℕ}

theorem length_itemTexts {l : List AgentValue} {texts : List String}
    (h : itemTexts i depthLeft l = .ok texts) : texts.length = l.length := by
  unfold itemTexts at h
  induction l generalizing texts with
  | nil =>
    cases h
    rfl
  | cons v l ih =>
    rw [List.mapM_cons] at h
    rcases bind_eq_ok h with ⟨text, -, h⟩
    rcases bind_eq_ok h with ⟨texts', htexts', h⟩
    rw [← Except.ok.inj h, List.length_cons, List.length_cons, ih htexts']

variable {l m : List AgentValue}

/-- Lists are compared as multisets of texts. -/
theorem listSimilarity_eq_ok_iff (hl : l ≠ []) (hm : m ≠ []) :
    listSimilarity i depthLeft l m = .ok q ↔ ∃ textsL textsM,
      itemTexts i depthLeft l = .ok textsL ∧ itemTexts i depthLeft m = .ok textsM ∧
        q = Counter.jaccard (textsL : Multiset String) textsM := by
  have hvalue : ∀ {textsL textsM : List String}, itemTexts i depthLeft l = .ok textsL →
      (if (((textsL ++ textsM).dedup.map fun k =>
          max (textsL.count k) (textsM.count k)).sum) = 0 then (1 : ℚ)
        else (((textsL ++ textsM).dedup.map fun k =>
            min (textsL.count k) (textsM.count k)).sum : ℕ) /
          (((textsL ++ textsM).dedup.map fun k =>
            max (textsL.count k) (textsM.count k)).sum : ℕ))
        = Counter.jaccard (textsL : Multiset String) textsM := by
    intro textsL textsM htexts
    have hne : (textsL : Multiset String) ≠ 0 := by
      rw [ne_eq, Multiset.coe_eq_zero, ← List.length_eq_zero_iff, length_itemTexts htexts,
        List.length_eq_zero_iff]
      exact hl
    have hmin := Counter.sum_min_count (s := (textsL : Multiset String)) (t := textsM)
      (List.nodup_dedup (textsL ++ textsM)) (fun a ha => by
        rw [Multiset.mem_inter, Multiset.mem_coe] at ha
        exact List.mem_dedup.mpr (List.mem_append_left _ ha.1))
    have hmax := Counter.sum_max_count (s := (textsL : Multiset String)) (t := textsM)
      (List.nodup_dedup (textsL ++ textsM)) (fun a ha => by
        rw [Multiset.mem_union, Multiset.mem_coe, Multiset.mem_coe] at ha
        exact List.mem_dedup.mpr (List.mem_append.mpr ha))
    simp only [Multiset.coe_count] at hmin hmax
    rw [hmin, hmax, if_neg (Counter.card_union_pos hne).ne']
    rfl
  unfold listSimilarity
  rw [if_neg fun h => hl h.1, if_neg (not_or.mpr ⟨hl, hm⟩)]
  constructor
  · intro h
    rcases bind_eq_ok h with ⟨textsL, htextsL, h⟩
    rcases bind_eq_ok h with ⟨textsM, htextsM, h⟩
    refine ⟨textsL, textsM, htextsL, htextsM, ?_⟩
    rw [← hvalue htextsL]
    exact (Except.ok.inj h).symm
  · rintro ⟨textsL, textsM, htextsL, htextsM, rfl⟩
    rw [← hvalue htextsL]
    unfold itemTexts at htextsL htextsM
    rw [htextsL, htextsM]
    rfl

theorem listSimilarity_symm
    (h : listSimilarity i depthLeft l m = .ok q) : listSimilarity i depthLeft m l = .ok q := by
  by_cases hl : l = []
  · rw [hl] at h ⊢
    by_cases hm : m = []
    · rw [hm] at h ⊢
      exact h
    · unfold listSimilarity at h ⊢
      rw [if_neg fun h => hm h.2, if_pos (Or.inl rfl)] at h
      rw [if_neg fun h => hm h.1, if_pos (Or.inr rfl)]
      exact h
  · by_cases hm : m = []
    · rw [hm] at h ⊢
      unfold listSimilarity at h ⊢
      rw [if_neg fun h => hl h.1, if_pos (Or.inr rfl)] at h
      rw [if_neg fun h => hl h.2, if_pos (Or.inl rfl)]
      exact h
    · rw [listSimilarity_eq_ok_iff hl hm] at h
      rcases h with ⟨textsL, textsM, htextsL, htextsM, rfl⟩
      exact (listSimilarity_eq_ok_iff hm hl).mpr
        ⟨textsM, textsL, htextsM, htextsL, Counter.jaccard_symm _ _⟩

theorem measures_listSimilarity {textsL textsM : List String}
    (htextsL : itemTexts i depthLeft l = .ok textsL)
    (htextsM : itemTexts i depthLeft m = .ok textsM) (h : listSimilarity i depthLeft l m = .ok q) :
    Measures (textsL.Perm textsM) q := by
  have hnil : ∀ {l : List AgentValue} {texts : List String},
      itemTexts i depthLeft l = .ok texts → (texts = [] ↔ l = []) := by
    intro l texts htexts
    rw [← List.length_eq_zero_iff, length_itemTexts htexts, List.length_eq_zero_iff]
  by_cases hl : l = []
  · have hL := (hnil htextsL).mpr hl
    by_cases hm : m = []
    · unfold listSimilarity at h
      rw [if_pos ⟨hl, hm⟩] at h
      rw [← Except.ok.inj h, hL, (hnil htextsM).mpr hm]
      exact measures_one (List.Perm.refl _)
    · unfold listSimilarity at h
      rw [if_neg fun h => hm h.2, if_pos (Or.inl hl)] at h
      rw [← Except.ok.inj h, hL]
      exact measures_zero fun hperm => hm ((hnil htextsM).mp hperm.nil_eq.symm)
  · by_cases hm : m = []
    · unfold listSimilarity at h
      rw [if_neg fun h => hl h.1, if_pos (Or.inr hm)] at h
      rw [← Except.ok.inj h, (hnil htextsM).mpr hm]
      exact measures_zero fun hperm => hl ((hnil htextsL).mp hperm.eq_nil)
    · rw [listSimilarity_eq_ok_iff hl hm, htextsL, htextsM] at h
      rcases h with ⟨_, _, heqL, heqM, rfl⟩
      rw [← Except.ok.inj heqL, ← Except.ok.inj heqM]
      refine ⟨Counter.jaccard_nonneg _ _, Counter.jaccard_le_one _ _, ?_⟩
      rw [Counter.jaccard_eq_one_iff, Multiset.coe_eq_coe]
      rw [ne_eq, Multiset.coe_eq_zero, hnil htextsL]
      exact hl

/-! ## Dictionaries -/

/-- The keys and the values of two dictionaries, in equal parts if their keys differ. -/
def blend (common all : ℕ) (sims : List ℚ) : ℚ :=
  if (common / all : ℚ) = 1 then mean sims else 1 / 2 * (common / all) + 1 / 2 * mean sims

theorem mean_nil : mean [] = 0 := by
  unfold mean
  simp

section
variable {compare : AgentValue → AgentValue → Except PyException ℚ} {l m : Entries}

/-- Dictionaries are compared key by key, weighed by the keys they share. -/
theorem dictSimilarity_eq_ok_iff (hall : allKeys l m ≠ []) :
    dictSimilarity compare l m = .ok q ↔ ∃ sims,
      ((commonKeys l m).mapM fun k => compare (l.get k) (m.get k)) = .ok sims ∧
        q = blend (commonKeys l m).length (allKeys l m).length sims := by
  have hresult : ∀ sims : List ℚ,
      (if ((commonKeys l m).length / (allKeys l m).length : ℚ) = 1 then mean sims
        else 1 / 2 * ((commonKeys l m).length / (allKeys l m).length) + 1 / 2 * mean sims)
        = blend (commonKeys l m).length (allKeys l m).length sims := fun _ => rfl
  unfold dictSimilarity
  dsimp only
  rw [if_neg hall]
  by_cases hcommon : commonKeys l m = []
  · -- the mean of no similarities is zero
    rw [if_pos hcommon, hcommon]
    constructor
    · intro h
      refine ⟨[], rfl, ?_⟩
      rw [← Except.ok.inj h]
      unfold blend
      rw [mean_nil]
    · rintro ⟨sims, hsims, rfl⟩
      rw [List.mapM_nil] at hsims
      rw [← Except.ok.inj hsims]
      unfold blend
      rw [mean_nil]
      rfl
  · rw [if_neg hcommon]
    constructor
    · intro h
      rcases bind_eq_ok h with ⟨sims, hsims, h⟩
      refine ⟨sims, hsims, ?_⟩
      rw [← Except.ok.inj h]
      exact hresult sims
    · rintro ⟨sims, hsims, rfl⟩
      rw [hsims]
      rfl

theorem dictSimilarity_nil (hall : allKeys l m = []) : dictSimilarity compare l m = .ok 1 :=
  if_pos hall

theorem dictSimilarity_symm {compare' : AgentValue → AgentValue → Except PyException ℚ}
    (hl : l.keys.Nodup) (hm : m.keys.Nodup)
    (hcompare : ∀ k ∈ commonKeys l m, ∀ r, compare (l.get k) (m.get k) = .ok r →
      compare' (m.get k) (l.get k) = .ok r)
    (h : dictSimilarity compare l m = .ok q) : dictSimilarity compare' m l = .ok q := by
  have hperm := perm_allKeys_symm hl hm
  by_cases hall : allKeys l m = []
  · rw [dictSimilarity_nil hall] at h
    rw [hall] at hperm
    rw [dictSimilarity_nil hperm.nil_eq.symm, h]
  · have hall' : allKeys m l ≠ [] := by
      intro hnil
      rw [hnil] at hperm
      exact hall hperm.eq_nil
    rw [dictSimilarity_eq_ok_iff hall] at h
    rcases h with ⟨sims, hsims, rfl⟩
    rw [dictSimilarity_eq_ok_iff hall', ← commonKeys_symm hl hm, ← hperm.length_eq]
    exact ⟨sims, mapM_ok_of_imp hcompare hsims, rfl⟩

end

/-! ## Symmetry -/

section
variable {a b : AgentValue} (hobjects : objects → ∀ a b, i.eqObj a b = i.eqObj b a)
include hobjects

/-- The similarity does not depend on the order of the two values. -/
theorem similarityOf_symm {depthLeft : ℕ} {dicts dicts' : Entries → Entries → Except PyException ℚ}
    (ha : a.Proper objects) (hb : b.Proper objects)
    (hdicts : ∀ l m, (AgentValue.dict l).Proper objects → (AgentValue.dict m).Proper objects →
      ∀ r, dicts l m = .ok r → dicts' m l = .ok r)
    (h : similarityOf i depthLeft dicts a b = .ok q) :
    similarityOf i depthLeft dicts' b a = .ok q := by
  have hA := ha.normalize depthLeft
  have hB := hb.normalize depthLeft
  unfold similarityOf at h ⊢
  dsimp only at h ⊢
  rw [← AgentValue.eq_symm hobjects hA hB]
  generalize normalize depthLeft a = a' at h hA ⊢
  generalize normalize depthLeft b = b' at h hB ⊢
  by_cases heq : a'.eq i b' = true
  · rw [if_pos heq] at h ⊢
    exact h
  · rw [if_neg heq] at h ⊢
    cases a' with
    | dict l =>
      cases b' with
      | dict m => exact hdicts l m hA hB q h
      | _ => exact h
    | list l =>
      cases b' with
      | list m => exact listSimilarity_symm h
      | _ => exact h
    | str s =>
      cases b' with
      | str t =>
        replace h : Except.ok (stringSimilarity s t) = Except.ok q := h
        rw [stringSimilarity_symm] at h
        exact h
      | _ => exact h
    | int n =>
      cases b' with
      | int m =>
        replace h : Except.ok (numberSimilarity n m) = Except.ok q := h
        rw [numberSimilarity_symm] at h
        exact h
      | float r =>
        replace h : Except.ok (numberSimilarity n r) = Except.ok q := h
        rw [numberSimilarity_symm] at h
        exact h
      | _ => exact h
    | float p =>
      cases b' with
      | int m =>
        replace h : Except.ok (numberSimilarity p m) = Except.ok q := h
        rw [numberSimilarity_symm] at h
        exact h
      | float r =>
        replace h : Except.ok (numberSimilarity p r) = Except.ok q := h
        rw [numberSimilarity_symm] at h
        exact h
      | _ => exact h
    | none => cases b' <;> exact h
    | bool x => cases b' <;> exact h
    | obj cls address => cases b' <;> exact h

/-- Similarity is symmetric. -/
theorem computeSimilarity_symm {depthLeft : ℕ} (ha : a.Proper objects) (hb : b.Proper objects)
    (h : computeSimilarity i depthLeft a b = .ok q) :
    computeSimilarity i depthLeft b a = .ok q := by
  induction depthLeft generalizing a b q with
  | zero =>
    refine similarityOf_symm hobjects ha hb (fun l m hl hm r hr => ?_) h
    rwa [AgentValue.eq_symm hobjects hm hl]
  | succ depthLeft ih =>
    refine similarityOf_symm hobjects ha hb (fun l m hl hm r hr => ?_) h
    exact dictSimilarity_symm hl.nodup_keys hm.nodup_keys
      (fun k _ r hr => ih (hl.get k) (hm.get k) hr) hr

end

end OmnibaseCore.Geometric
