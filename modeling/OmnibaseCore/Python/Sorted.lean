import Mathlib.Data.List.TakeWhile
import Mathlib.Tactic

/-!
# Stable sorting

`sorted(l, key=key)`, and `sorted(l, key=key, reverse=True)`, which is descending in the key:
elements with the same key stay in the order of the list.
-/

namespace OmnibaseCore

section
variable {α κ : Type*} [LinearOrder κ] (key : α → κ)

/-- `sorted(l, key=key)`. -/
def sortedAsc (l : List α) : List α := l.insertionSort fun a b => key a ≤ key b

/-- `sorted(l, key=key, reverse=True)`. -/
def sortedDesc (l : List α) : List α := l.insertionSort fun a b => key b ≤ key a

/-- At some place of the list stands `t`, and the elements with `P` have no greater key, those
before that place a smaller one. -/
def Leading (P : α → Prop) (l : List α) (t : α) : Prop :=
  ∃ before after, l = before ++ t :: after ∧ (∀ u ∈ before, P u → key u < key t) ∧
    ∀ u ∈ after, P u → key u ≤ key t

variable {l : List α}

theorem mem_sortedDesc {a : α} : a ∈ sortedDesc key l ↔ a ∈ l :=
  (List.perm_insertionSort _ l).mem_iff

theorem pairwise_sortedDesc (l : List α) :
    (sortedDesc key l).Pairwise fun a b => key b ≤ key a := by
  have htotal : Std.Total fun a b : α => key b ≤ key a := ⟨fun a b => le_total (key b) (key a)⟩
  have htrans : IsTrans α fun a b : α => key b ≤ key a := ⟨fun _ _ _ h₁ h₂ => h₂.trans h₁⟩
  exact List.pairwise_insertionSort _ l

theorem sortedDesc_cons (a : α) (l : List α) :
    ∃ high low, sortedDesc key l = high ++ low ∧ sortedDesc key (a :: l) = high ++ a :: low ∧
      ∀ u ∈ high, key a < key u := by
  unfold sortedDesc
  rw [List.insertionSort_cons, List.orderedInsert_eq_take_drop]
  refine ⟨_, _, List.takeWhile_append_dropWhile.symm, rfl, fun u hu => ?_⟩
  have hkey := List.mem_takeWhile_imp hu
  exact not_le.mp (of_decide_eq_true hkey)

/-! ## Ascending -/

theorem perm_sortedAsc (l : List α) : (sortedAsc key l).Perm l := List.perm_insertionSort _ l

theorem pairwise_sortedAsc (l : List α) :
    (sortedAsc key l).Pairwise fun a b => key a ≤ key b := by
  have htotal : Std.Total fun a b : α => key a ≤ key b := ⟨fun a b => le_total (key a) (key b)⟩
  have htrans : IsTrans α fun a b : α => key a ≤ key b := ⟨fun _ _ _ h₁ h₂ => h₁.trans h₂⟩
  exact List.pairwise_insertionSort _ l

theorem sortedAsc_of_pairwise (h : l.Pairwise fun a b => key a ≤ key b) : sortedAsc key l = l :=
  h.insertionSort_eq

theorem filter_sortedAsc (l : List α) (k : κ) :
    (sortedAsc key l).filter (fun a => key a = k) = l.filter fun a => key a = k := by
  induction l with
  | nil => rfl
  | cons a l ih =>
    have hinsert : sortedAsc key (a :: l)
        = (sortedAsc key l).takeWhile (fun b => ¬ key a ≤ key b) ++
          a :: (sortedAsc key l).dropWhile (fun b => ¬ key a ≤ key b) := by
      unfold sortedAsc
      rw [List.insertionSort_cons, List.orderedInsert_eq_take_drop]
    rw [hinsert, List.filter_append]
    by_cases ha : key a = k
    · -- what the element goes behind has a smaller key
      have hfront : ((sortedAsc key l).takeWhile fun b => ¬ key a ≤ key b).filter
          (fun b => key b = k) = [] := by
        apply List.filter_eq_nil_iff.mpr
        intro b hb hkey
        have hlt := List.mem_takeWhile_imp hb
        rw [decide_eq_true_eq] at hlt hkey
        rw [ha, hkey] at hlt
        exact hlt le_rfl
      rw [hfront, List.nil_append, List.filter_cons_of_pos (by simpa using ha),
        List.filter_cons_of_pos (by simpa using ha), ← ih]
      congr 1
      conv_rhs => rw [← List.takeWhile_append_dropWhile (p := fun b => ¬ key a ≤ key b)
        (l := sortedAsc key l), List.filter_append, hfront, List.nil_append]
    · rw [List.filter_cons_of_neg (by simpa using ha), List.filter_cons_of_neg (by simpa using ha),
        ← List.filter_append, List.takeWhile_append_dropWhile, ih]

theorem find?_sortedAsc_key (l : List α) (k : κ) :
    (sortedAsc key l).find? (fun a => key a = k) = l.find? fun a => key a = k := by
  rw [← List.head?_filter, filter_sortedAsc, List.head?_filter]

/-- Two sorted lists are equal if they have the same elements for each key, in order. -/
theorem eq_of_filter_eq {l l' : List α} (hl : l.Pairwise fun a b => key a ≤ key b)
    (hl' : l'.Pairwise fun a b => key a ≤ key b)
    (h : ∀ k, l.filter (fun a => key a = k) = l'.filter fun a => key a = k) : l = l' := by
  have hmem : ∀ {m m' : List α} {a : α},
      (∀ k, m.filter (fun a => key a = k) = m'.filter fun a => key a = k) → a ∈ m → a ∈ m' := by
    intro m m' a hm ha
    have hfilter : a ∈ m.filter fun b => key b = key a := List.mem_filter.mpr ⟨ha, by simp⟩
    rw [hm] at hfilter
    exact (List.mem_filter.mp hfilter).1
  induction l generalizing l' with
  | nil =>
    cases l' with
    | nil => rfl
    | cons b l' => exact absurd (hmem (fun k => (h k).symm) List.mem_cons_self) (by simp)
  | cons a l ih =>
    cases l' with
    | nil => exact absurd (hmem h List.mem_cons_self) (by simp)
    | cons b l' =>
      rw [List.pairwise_cons] at hl hl'
      -- the first elements have the smallest key of all
      have hab : key a ≤ key b := by
        rcases List.mem_cons.mp (hmem (fun k => (h k).symm) (List.mem_cons_self (a := b)))
          with heq | hb
        · rw [heq]
        · exact hl.1 b hb
      have hba : key b ≤ key a := by
        rcases List.mem_cons.mp (hmem h (List.mem_cons_self (a := a))) with heq | ha
        · rw [heq]
        · exact hl'.1 a ha
      have hkey : key b = key a := le_antisymm hba hab
      have hhead := h (key a)
      rw [List.filter_cons_of_pos (by simp), List.filter_cons_of_pos (by simp [hkey]),
        List.cons.injEq] at hhead
      rw [hhead.1, ih hl.2 hl'.2]
      intro k
      have hk := h k
      by_cases hak : key a = k
      · rw [List.filter_cons_of_pos (by simp [hak]),
          List.filter_cons_of_pos (by simp [hkey, hak]), List.cons.injEq] at hk
        exact hk.2
      · rwa [List.filter_cons_of_neg (by simpa using hak),
          List.filter_cons_of_neg (by simpa [hkey] using hak)] at hk

/-- Two lists are sorted to the same list if and only if they agree on the elements with each
key. -/
theorem sortedAsc_eq_iff {l l' : List α} :
    sortedAsc key l = sortedAsc key l' ↔
      ∀ k, l.filter (fun a => key a = k) = l'.filter fun a => key a = k := by
  constructor
  · intro h k
    rw [← filter_sortedAsc, h, filter_sortedAsc]
  · intro h
    apply eq_of_filter_eq key (pairwise_sortedAsc key l) (pairwise_sortedAsc key l')
    intro k
    rw [filter_sortedAsc, filter_sortedAsc, h]

theorem sortedAsc_eq_of_perm_of_injOn {l l' : List α}
    (hkey : ∀ a ∈ l, ∀ b ∈ l, key a = key b → a = b) (h : l.Perm l') :
    sortedAsc key l = sortedAsc key l' :=
  (((perm_sortedAsc key l).trans h).trans (perm_sortedAsc key l').symm).eq_of_pairwise
    (fun a b ha hb hab hba => hkey a ((perm_sortedAsc key l).mem_iff.mp ha) b
      (h.mem_iff.mpr ((perm_sortedAsc key l').mem_iff.mp hb)) (le_antisymm hab hba))
    (pairwise_sortedAsc key l) (pairwise_sortedAsc key l')

theorem sortedAsc_eq_of_perm (hkey : Function.Injective key) {l l' : List α} (h : l.Perm l') :
    sortedAsc key l = sortedAsc key l' :=
  sortedAsc_eq_of_perm_of_injOn key (fun _ _ _ _ hab => hkey hab) h

theorem sortedDesc_eq_of_perm_of_injOn {l l' : List α}
    (hkey : ∀ a ∈ l, ∀ b ∈ l, key a = key b → a = b) (h : l.Perm l') :
    sortedDesc key l = sortedDesc key l' := by
  have hsorted : (sortedDesc key l).Perm (sortedDesc key l') :=
    ((List.perm_insertionSort _ l).trans h).trans (List.perm_insertionSort _ l').symm
  apply hsorted.eq_of_pairwise _ (pairwise_sortedDesc key l) (pairwise_sortedDesc key l')
  intro a b ha hb hab hba
  exact hkey a ((mem_sortedDesc key).mp ha) b (h.mem_iff.mpr ((mem_sortedDesc key).mp hb))
    (le_antisymm hba hab)

theorem sortedAsc_filterMap {β : Type*} {key' : β → κ} {f : α → Option β}
    (h : ∀ a b, f a = some b → key' b = key a) (l : List α) :
    sortedAsc key' (l.filterMap f) = (sortedAsc key l).filterMap f := by
  have hfilter : ∀ (m : List α) (k : κ), (m.filterMap f).filter (fun b => key' b = k)
      = (m.filter fun a => key a = k).filterMap f := by
    intro m k
    rw [List.filter_filterMap, List.filterMap_filter]
    apply List.filterMap_congr
    intro a _
    cases hf : f a with
    | none => simp
    | some b => simp [h a b hf, Option.filter]
  have hsorted : ((sortedAsc key l).filterMap f).Pairwise fun a b => key' a ≤ key' b := by
    rw [List.pairwise_filterMap]
    apply (pairwise_sortedAsc key l).imp
    intro a a' hle b hb b' hb'
    rw [h a b hb, h a' b' hb']
    exact hle
  apply eq_of_filter_eq key' (pairwise_sortedAsc key' _) hsorted
  intro k
  rw [filter_sortedAsc, hfilter, hfilter, filter_sortedAsc]

theorem sortedAsc_map {β : Type*} {key' : β → κ} {f : α → β} (h : ∀ a, key' (f a) = key a)
    (l : List α) : sortedAsc key' (l.map f) = (sortedAsc key l).map f := by
  rw [← List.filterMap_eq_map]
  apply sortedAsc_filterMap
  intro a b hb
  rw [← h a, ← Option.some.inj hb]

theorem sortedAsc_sortedAsc (l : List α) : sortedAsc key (sortedAsc key l) = sortedAsc key l :=
  sortedAsc_of_pairwise key (pairwise_sortedAsc key l)

theorem sortedAsc_filter (p : α → Bool) (l : List α) :
    sortedAsc key (l.filter p) = (sortedAsc key l).filter p := by
  rw [← List.filterMap_eq_filter]
  apply sortedAsc_filterMap
  intro a b hb
  rw [(Option.guard_eq_some_iff.mp hb).1]

theorem sortedAsc_sortedAsc_of_imp {κ' : Type*} [LinearOrder κ'] {key' : α → κ'}
    (h : ∀ a b, key a = key b → key' a = key' b) (l : List α) :
    sortedAsc key (sortedAsc key' l) = sortedAsc key l := by
  rw [sortedAsc_eq_iff]
  intro k
  by_cases hk : ∃ a ∈ l, key a = k
  · obtain ⟨a, -, ha⟩ := hk
    -- the elements with this key have the same first key
    have hsame : ∀ m : List α, m.filter (fun b => key b = k)
        = (m.filter fun b => key' b = key' a).filter fun b => key b = k := by
      intro m
      rw [List.filter_filter]
      apply List.filter_congr
      intro b _
      by_cases hb : key b = k
      · simp [hb, h b a (hb.trans ha.symm)]
      · simp [hb]
    rw [hsame, filter_sortedAsc, ← hsame]
  · have hnone : ∀ m : List α, (∀ b ∈ m, b ∈ l) → m.filter (fun b => key b = k) = [] := by
      intro m hm
      rw [List.filter_eq_nil_iff]
      intro b hb hkey
      exact hk ⟨b, hm b hb, of_decide_eq_true hkey⟩
    rw [hnone l fun b hb => hb, hnone _ fun b hb => (perm_sortedAsc key' l).mem_iff.mp hb]

/-- At some place of the list stands `t`, and the elements with `P` have no smaller key, those
before that place a greater one. -/
def Foremost (P : α → Prop) (l : List α) (t : α) : Prop :=
  ∃ before after, l = before ++ t :: after ∧ (∀ u ∈ before, P u → key t < key u) ∧
    ∀ u ∈ after, P u → key t ≤ key u

/-! ## Descending -/

variable {key}

variable {P : α → Prop} {t : α}

theorem leading_cons {a : α} : Leading key P (a :: l) t ↔ (a = t ∧ ∀ u ∈ l, P u → key u ≤ key t) ∨
      ((P a → key a < key t) ∧ Leading key P l t) := by
  constructor
  · rintro ⟨before, after, hsplit, hbefore, hafter⟩
    cases before with
    | nil =>
      rw [List.nil_append, List.cons.injEq] at hsplit
      exact Or.inl ⟨hsplit.1, hsplit.2 ▸ hafter⟩
    | cons b before =>
      rw [List.cons_append, List.cons.injEq] at hsplit
      rw [List.forall_mem_cons] at hbefore
      exact Or.inr ⟨hsplit.1 ▸ hbefore.1, before, after, hsplit.2, hbefore.2, hafter⟩
  · rintro (⟨rfl, hafter⟩ | ⟨ha, before, after, rfl, hbefore, hafter⟩)
    · exact ⟨[], l, rfl, by simp, hafter⟩
    · exact ⟨a :: before, after, rfl, List.forall_mem_cons.mpr ⟨ha, hbefore⟩, hafter⟩

theorem mem_of_leading (h : Leading key P l t) : t ∈ l := by
  rcases h with ⟨before, after, rfl, -⟩
  simp

theorem leading_filter {p : α → Bool} :
    Leading key P (l.filter p) t ↔ p t = true ∧ Leading key (fun u => p u = true ∧ P u) l t := by
  induction l with
  | nil =>
    have hnil : ∀ Q : α → Prop, ¬ Leading key Q [] t := fun Q h => nomatch mem_of_leading h
    exact iff_of_false (hnil _) fun h => hnil _ h.2
  | cons a l ih =>
    rw [leading_cons]
    by_cases ha : p a = true
    · rw [List.filter_cons_of_pos ha, leading_cons, ih]
      simp only [List.mem_filter, and_imp]
      constructor
      · rintro (⟨rfl, hle⟩ | ⟨hlt, ht, hl⟩)
        · exact ⟨ha, Or.inl ⟨rfl, fun u hu hpu hP => hle u hu hpu hP⟩⟩
        · exact ⟨ht, Or.inr ⟨fun _ hP => hlt hP, hl⟩⟩
      · rintro ⟨ht, ⟨rfl, hle⟩ | ⟨hlt, hl⟩⟩
        · exact Or.inl ⟨rfl, fun u hu hpu hP => hle u hu hpu hP⟩
        · exact Or.inr ⟨fun hP => hlt ha hP, ht, hl⟩
    · rw [List.filter_cons_of_neg ha, ih]
      constructor
      · rintro ⟨ht, hl⟩
        exact ⟨ht, Or.inr ⟨fun h => absurd h.1 ha, hl⟩⟩
      · rintro ⟨ht, ⟨rfl, -⟩ | ⟨-, hl⟩⟩
        · exact absurd ht ha
        · exact ⟨ht, hl⟩

theorem append_cons_eq_append_cons {high low front back : List α} {a t : α}
    (h : high ++ a :: low = front ++ t :: back) :
    (high = front ∧ a = t ∧ low = back) ∨
      (∃ middle, front = high ++ a :: middle ∧ low = middle ++ t :: back) ∨
      ∃ middle, high = front ++ t :: middle ∧ back = middle ++ a :: low := by
  rcases List.append_eq_append_iff.mp h with ⟨middle, rfl, hlow⟩ | ⟨middle, rfl, hback⟩
  · cases middle with
    | nil =>
      rw [List.nil_append, List.cons.injEq] at hlow
      exact Or.inl ⟨(List.append_nil _).symm, hlow.1, hlow.2⟩
    | cons b middle =>
      rw [List.cons_append, List.cons.injEq] at hlow
      exact Or.inr (Or.inl ⟨middle, by rw [hlow.1], hlow.2⟩)
  · cases middle with
    | nil =>
      rw [List.nil_append, List.cons.injEq] at hback
      exact Or.inl ⟨List.append_nil _, hback.1.symm, hback.2.symm⟩
    | cons b middle =>
      rw [List.cons_append, List.cons.injEq] at hback
      exact Or.inr (Or.inr ⟨middle, by rw [hback.1], hback.2⟩)

/-- The elements that a search for `P` through the sorted list comes to, and does not leave
behind, are those that lead the elements with `P`. -/
theorem leading_iff : Leading key P l t ↔
      ∃ front back, sortedDesc key l = front ++ t :: back ∧ ∀ u ∈ front, ¬ P u := by
  induction l with
  | nil =>
    constructor
    · rintro ⟨before, after, hsplit, -⟩
      simp at hsplit
    · rintro ⟨front, back, hsplit, -⟩
      simp [sortedDesc] at hsplit
  | cons a l ih =>
    rcases sortedDesc_cons key a l with ⟨high, low, hrest, hcons, hhigh⟩
    have hsorted : ∀ u ∈ low, key u ≤ key a := by
      have hpairwise := pairwise_sortedDesc key (a :: l)
      rw [hcons, List.pairwise_append, List.pairwise_cons] at hpairwise
      exact hpairwise.2.1.1
    have hmem : ∀ u, u ∈ l ↔ u ∈ high ∨ u ∈ low := by
      intro u
      rw [← List.mem_append, ← hrest, mem_sortedDesc]
    rw [leading_cons, ih, hcons, hrest]
    constructor
    · rintro (⟨rfl, hle⟩ | ⟨ha, front, back, hsplit, hfront⟩)
      · refine ⟨high, low, rfl, fun u hu hP => ?_⟩
        exact absurd (hle u ((hmem u).mpr (Or.inl hu)) hP) (not_le.mpr (hhigh u hu))
      · rcases List.append_eq_append_iff.mp hsplit with ⟨middle, rfl, hlow⟩ | ⟨middle, rfl, hback⟩
        · -- `t` comes after the new element, which therefore does not have `P`
          have hnot : ¬ P a := fun hP => absurd (ha hP) (not_lt.mpr (hsorted t (by simp [hlow])))
          refine ⟨high ++ a :: middle, back, by simp [hlow], fun u hu => ?_⟩
          rcases List.mem_append.mp hu with hu | hu
          · exact hfront u (List.mem_append_left _ hu)
          · rcases List.mem_cons.mp hu with rfl | hu
            · exact hnot
            · exact hfront u (List.mem_append_right _ hu)
        · cases middle with
          | nil =>
            rw [List.nil_append] at hback
            have hnot : ¬ P a := fun hP =>
              absurd (ha hP) (not_lt.mpr (hsorted t (by simp [← hback])))
            refine ⟨front ++ [a], back, by simp [← hback], fun u hu => ?_⟩
            rcases List.mem_append.mp hu with hu | hu
            · exact hfront u hu
            · rw [List.mem_singleton.mp hu]
              exact hnot
          | cons b middle =>
            rw [List.cons_append, List.cons.injEq] at hback
            exact ⟨front, middle ++ a :: low, by simp [hback.1], hfront⟩
    · rintro ⟨front, back, hsplit, hfront⟩
      rcases append_cons_eq_append_cons hsplit with
        ⟨rfl, rfl, rfl⟩ | ⟨middle, rfl, rfl⟩ | ⟨middle, rfl, rfl⟩
      · refine Or.inl ⟨rfl, fun u hu hP => ?_⟩
        rcases (hmem u).mp hu with hu | hu
        · exact absurd hP (hfront u hu)
        · exact hsorted u hu
      · refine Or.inr ⟨fun hP => absurd hP (hfront a (by simp)), high ++ middle, back, by simp,
          fun u hu => hfront u ?_⟩
        rcases List.mem_append.mp hu with hu | hu <;> simp [hu]
      · exact Or.inr ⟨fun _ => hhigh t (by simp), front, middle ++ low, by simp, hfront⟩

theorem sortedAsc_eq_sortedDesc (l : List α) :
    sortedAsc key l = sortedDesc (fun a => OrderDual.toDual (key a)) l :=
  rfl

theorem find?_sortedAsc_eq_some_iff {p : α → Bool} :
    (sortedAsc key l).find? p = some t ↔ p t = true ∧ Foremost key (fun u => p u = true) l t := by
  have hleading : Foremost key (fun u => p u = true) l t ↔
      Leading (fun a => OrderDual.toDual (key a)) (fun u => p u = true) l t := Iff.rfl
  rw [hleading, leading_iff, sortedAsc_eq_sortedDesc, List.find?_eq_some_iff_append]
  simp only [Bool.not_eq_true', Bool.not_eq_true]

theorem foremost_iff_of_injOn (hkey : ∀ a ∈ l, ∀ b ∈ l, key a = key b → a = b) (hl : l.Nodup) :
    P t ∧ Foremost key P l t ↔ P t ∧ t ∈ l ∧ ∀ u ∈ l, P u → key t ≤ key u := by
  constructor
  · rintro ⟨ht, before, after, rfl, hbefore, hafter⟩
    refine ⟨ht, by simp, fun u hu hP => ?_⟩
    rcases List.mem_append.mp hu with hu | hu
    · exact (hbefore u hu hP).le
    · rcases List.mem_cons.mp hu with rfl | hu
      · exact le_rfl
      · exact hafter u hu hP
  · intro ⟨ht, hmem, hle⟩
    obtain ⟨before, after, rfl⟩ := List.append_of_mem hmem
    refine ⟨ht, before, after, rfl, fun u hu hP => ?_, fun u hu hP => hle u (by simp [hu]) hP⟩
    apply lt_of_le_of_ne (hle u (by simp [hu]) hP)
    intro heq
    have hsame := hkey t hmem u (by simp [hu]) heq
    rw [hsame] at hl
    exact (List.nodup_append.mp hl).2.2 u hu u List.mem_cons_self rfl

end

end OmnibaseCore
