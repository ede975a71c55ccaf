import Mathlib.Tactic

/-!
# Counters

Two measures of how much multisets have in common. Both are symmetric, lie between zero and one,
and are one for equal multisets only. `sum_count_eq_card` turns a sum over the keys of a
counter into the size of a multiset.
-/

namespace OmnibaseCore.Counter

variable {α : Type} [DecidableEq α]

/-! ## Sizes -/

variable {keys : List α}

/-- The counts of a list of keys that has every element once. -/
theorem sum_count_eq_card (hkeys : keys.Nodup) {s : Multiset α} (h : ∀ a ∈ s, a ∈ keys) :
    (keys.map fun k => s.count k).sum = s.card := by
  rw [← List.sum_toFinset _ hkeys]
  apply Multiset.sum_count_eq_card
  intro a ha
  exact List.mem_toFinset.mpr (h a ha)

variable {s t : Multiset α}

theorem sum_min_count (hkeys : keys.Nodup) (h : ∀ a ∈ s ∩ t, a ∈ keys) :
    (keys.map fun k => min (s.count k) (t.count k)).sum = (s ∩ t).card := by
  rw [← sum_count_eq_card hkeys h]
  simp only [Multiset.count_inter]

theorem sum_max_count (hkeys : keys.Nodup) (h : ∀ a ∈ s ∪ t, a ∈ keys) :
    (keys.map fun k => max (s.count k) (t.count k)).sum = (s ∪ t).card := by
  rw [← sum_count_eq_card hkeys h]
  simp only [Multiset.count_union]

theorem card_inter_le_left : (s ∩ t).card ≤ s.card := Multiset.card_le_card Multiset.inter_le_left

theorem card_inter_le_right : (s ∩ t).card ≤ t.card :=
  Multiset.card_le_card Multiset.inter_le_right

theorem eq_of_card_le (hs : s.card ≤ (s ∩ t).card) (ht : t.card ≤ (s ∩ t).card) : s = t := by
  have hleft : s ∩ t = s := Multiset.eq_of_le_of_card_le Multiset.inter_le_left hs
  have hright : s ∩ t = t := Multiset.eq_of_le_of_card_le Multiset.inter_le_right ht
  rw [← hleft, hright]

/-! ## The coefficient of Dice -/

/-- Twice the common elements, of all elements. -/
def dice (s t : Multiset α) : ℚ := 2 * (s ∩ t).card / (s.card + t.card)

theorem dice_symm (s t : Multiset α) : dice s t = dice t s := by
  unfold dice
  rw [Multiset.inter_comm, add_comm]

theorem dice_nonneg (s t : Multiset α) : 0 ≤ dice s t := by
  unfold dice
  positivity

theorem dice_le_one (s t : Multiset α) : dice s t ≤ 1 := by
  unfold dice
  apply div_le_one_of_le₀ _ (by positivity)
  have hle : 2 * (s ∩ t).card ≤ s.card + t.card := by
    have hleft : (s ∩ t).card ≤ s.card := card_inter_le_left
    have hright : (s ∩ t).card ≤ t.card := card_inter_le_right
    omega
  exact_mod_cast hle

theorem dice_eq_one_iff (h : s ≠ 0) : dice s t = 1 ↔ s = t := by
  have hs : 0 < s.card := Multiset.card_pos.mpr h
  have hpos : (0 : ℚ) < s.card + t.card := by
    have hcast : (0 : ℚ) < s.card := by exact_mod_cast hs
    positivity
  unfold dice
  rw [div_eq_one_iff_eq hpos.ne']
  constructor
  · intro heq
    have hnat : 2 * (s ∩ t).card = s.card + t.card := by exact_mod_cast heq
    have hleft : (s ∩ t).card ≤ s.card := card_inter_le_left
    have hright : (s ∩ t).card ≤ t.card := card_inter_le_right
    exact eq_of_card_le (by omega) (by omega)
  · rintro rfl
    have hself : s ∩ s = s := inf_idem s
    rw [hself]
    ring

/-! ## The index of Jaccard -/

/-- The common elements, of those that one of the two has. -/
def jaccard (s t : Multiset α) : ℚ := (s ∩ t).card / (s ∪ t).card

theorem jaccard_symm (s t : Multiset α) : jaccard s t = jaccard t s := by
  unfold jaccard
  rw [Multiset.inter_comm, Multiset.union_comm]

theorem card_inter_le_card_union : (s ∩ t).card ≤ (s ∪ t).card :=
  Multiset.card_le_card (Multiset.inter_le_left.trans Multiset.le_union_left)

theorem jaccard_nonneg (s t : Multiset α) : 0 ≤ jaccard s t := by
  unfold jaccard
  positivity

theorem jaccard_le_one (s t : Multiset α) : jaccard s t ≤ 1 := by
  unfold jaccard
  apply div_le_one_of_le₀ _ (by positivity)
  exact_mod_cast card_inter_le_card_union

theorem card_union_pos (h : s ≠ 0) : 0 < (s ∪ t).card :=
  (Multiset.card_pos.mpr h).trans_le (Multiset.card_le_card Multiset.le_union_left)

theorem jaccard_eq_one_iff (h : s ≠ 0) : jaccard s t = 1 ↔ s = t := by
  have hpos : ((s ∪ t).card : ℚ) ≠ 0 := by exact_mod_cast (card_union_pos h).ne'
  unfold jaccard
  rw [div_eq_one_iff_eq hpos]
  constructor
  · intro heq
    have hnat : (s ∩ t).card = (s ∪ t).card := by exact_mod_cast heq
    have hleft : s.card ≤ (s ∪ t).card := Multiset.card_le_card Multiset.le_union_left
    have hright : t.card ≤ (s ∪ t).card := Multiset.card_le_card Multiset.le_union_right
    exact eq_of_card_le (by omega) (by omega)
  · rintro rfl
    have hinter : s ∩ s = s := inf_idem s
    have hunion : s ∪ s = s := sup_idem s
    rw [hinter, hunion]

end OmnibaseCore.Counter
