import Mathlib.Tactic

/-!
# Dictionaries of lists

A dictionary that collects items under a key, `d[key(a)].append(a)`, in the order in which the
keys come first.
-/

namespace OmnibaseCore

variable {α κ : Type} [DecidableEq κ] {key : α → κ} {l : List α} {d : List (κ × List α)}

/-- `d[k].append(a)`. -/
def appendAt : List (κ × List α) → κ → α → List (κ × List α)
  | [], k, a => [(k, [a])]
  | (k', items) :: rest, k, a =>
    if k' = k then (k', items ++ [a]) :: rest else (k', items) :: appendAt rest k a

/-- `d.get(k, [])`. -/
def getList (d : List (κ × List α)) (k : κ) : List α :=
  ((d.find? (·.1 = k)).map Prod.snd).getD []

/-- The items under their keys. -/
def groupBy (key : α → κ) (l : List α) : List (κ × List α) :=
  l.foldl (fun d a => appendAt d (key a) a) []

@[simp]
theorem groupBy_append (key : α → κ) (l : List α) (a : α) :
    groupBy key (l ++ [a]) = appendAt (groupBy key l) (key a) a := by
  simp [groupBy]

/-- The dictionary holds the items of `l`, each under its key. -/
structure Groups (key : α → κ) (l : List α) (d : List (κ × List α)) : Prop where
  nodup : (d.map Prod.fst).Nodup
  mem_keys : ∀ k, k ∈ d.map Prod.fst ↔ ∃ a ∈ l, key a = k
  items : ∀ entry ∈ d, entry.2 = l.filter (key · = entry.1)

theorem mem_keys_appendAt (d : List (κ × List α)) (k k' : κ) (a : α) :
    k' ∈ (appendAt d k a).map Prod.fst ↔ k' ∈ d.map Prod.fst ∨ k' = k := by
  induction d with
  | nil => simp [appendAt]
  | cons entry rest ih =>
    unfold appendAt
    by_cases hk : entry.1 = k
    · rw [if_pos hk]
      simp only [List.map_cons, List.mem_cons]
      constructor
      · exact Or.inl
      · rintro (h | rfl)
        · exact h
        · exact Or.inl hk.symm
    · rw [if_neg hk]
      simp only [List.map_cons, List.mem_cons, ih, or_assoc]

theorem nodup_appendAt (h : (d.map Prod.fst).Nodup) (k : κ) (a : α) :
    ((appendAt d k a).map Prod.fst).Nodup := by
  induction d with
  | nil => exact List.nodup_singleton k
  | cons entry rest ih =>
    unfold appendAt
    by_cases hk : entry.1 = k
    · rw [if_pos hk]
      exact h
    · rw [if_neg hk]
      rw [List.map_cons, List.nodup_cons] at h ⊢
      refine ⟨fun hmem => ?_, ih h.2⟩
      exact ((mem_keys_appendAt rest k entry.1 a).mp hmem).elim h.1 hk

theorem mem_appendAt (hnodup : (d.map Prod.fst).Nodup) {k : κ} {a : α} {entry : κ × List α}
    (h : entry ∈ appendAt d k a) :
    (entry ∈ d ∧ entry.1 ≠ k) ∨
      entry.1 = k ∧ ((∃ items, (k, items) ∈ d ∧ entry.2 = items ++ [a]) ∨
        k ∉ d.map Prod.fst ∧ entry.2 = [a]) := by
  induction d with
  | nil =>
    rw [List.mem_singleton.mp h]
    exact Or.inr ⟨rfl, Or.inr ⟨List.not_mem_nil, rfl⟩⟩
  | cons first rest ih =>
    rw [List.map_cons, List.nodup_cons] at hnodup
    unfold appendAt at h
    by_cases hk : first.1 = k
    · rw [if_pos hk] at h
      rcases List.mem_cons.mp h with rfl | h
      · exact Or.inr ⟨hk, Or.inl ⟨first.2, by simp [← hk], rfl⟩⟩
      · refine Or.inl ⟨List.mem_cons_of_mem _ h, fun hsame => hnodup.1 ?_⟩
        rw [hk, ← hsame]
        exact List.mem_map_of_mem h
    · rw [if_neg hk] at h
      rcases List.mem_cons.mp h with rfl | h
      · exact Or.inl ⟨List.mem_cons_self, hk⟩
      · rcases ih hnodup.2 h with ⟨hmem, hne⟩ | ⟨hsame, ⟨items, hmem, hitems⟩ | ⟨hnot, hitems⟩⟩
        · exact Or.inl ⟨List.mem_cons_of_mem _ hmem, hne⟩
        · exact Or.inr ⟨hsame, Or.inl ⟨items, List.mem_cons_of_mem _ hmem, hitems⟩⟩
        · exact Or.inr ⟨hsame, Or.inr ⟨by simp [Ne.symm hk, hnot], hitems⟩⟩

theorem groups_nil : Groups key [] [] :=
  ⟨List.nodup_nil, by simp, fun _ h => (nomatch h)⟩

/-- One more item. -/
theorem Groups.append (h : Groups key l d) (a : α) :
    Groups key (l ++ [a]) (appendAt d (key a) a) where
  nodup := nodup_appendAt h.nodup _ _
  mem_keys k := by
    rw [mem_keys_appendAt, h.mem_keys]
    simp [or_and_right, exists_or, eq_comm]
  items entry hentry := by
    rcases mem_appendAt h.nodup hentry with
      ⟨hmem, hne⟩ | ⟨hk, ⟨items, hmem, hitems⟩ | ⟨hnot, hitems⟩⟩
    · rw [h.items entry hmem]
      simp [List.filter_append, Ne.symm hne]
    · have hold : items = l.filter (key · = key a) := h.items _ hmem
      rw [hitems, hold, hk]
      simp [List.filter_append]
    · have hold : l.filter (key · = key a) = [] := by
        refine List.filter_eq_nil_iff.mpr fun b hb => ?_
        have hne : key b ≠ key a := fun hsame => hnot ((h.mem_keys _).mpr ⟨b, hb, hsame⟩)
        simpa using hne
      rw [hitems, hk, List.filter_append, hold]
      simp

/-- The dictionary that is built item by item. -/
theorem groups_groupBy (key : α → κ) (l : List α) : Groups key l (groupBy key l) := by
  induction l using List.reverseRecOn with
  | nil => exact groups_nil
  | append_singleton l a ih =>
    rw [groupBy_append]
    exact ih.append a

/-- What the dictionary holds under a key. -/
theorem Groups.getList_eq (h : Groups key l d) (k : κ) : getList d k = l.filter (key · = k) := by
  unfold getList
  cases hfind : d.find? (·.1 = k) with
  | none =>
    refine (List.filter_eq_nil_iff.mpr fun a ha => ?_).symm
    have hne : key a ≠ k := fun hk => by
      obtain ⟨entry, hentry, hfst⟩ := List.mem_map.mp ((h.mem_keys k).mpr ⟨a, ha, hk⟩)
      have hnot := List.find?_eq_none.mp hfind entry hentry
      simp [hfst] at hnot
    simpa using hne
  | some entry =>
    have hk : entry.1 = k := by simpa using List.find?_some hfind
    show entry.2 = _
    rw [h.items entry (List.mem_of_find?_eq_some hfind), hk]

theorem map_fst_appendAt (d : List (κ × List α)) (k : κ) (a : α) :
    (appendAt d k a).map Prod.fst =
      if k ∈ d.map Prod.fst then d.map Prod.fst else d.map Prod.fst ++ [k] := by
  induction d with
  | nil => rfl
  | cons entry rest ih =>
    unfold appendAt
    by_cases hk : entry.1 = k
    · simp [hk]
    · rw [if_neg hk, List.map_cons, ih, List.map_cons]
      simp only [List.mem_cons, Ne.symm hk, false_or]
      split_ifs <;> rfl

theorem find?_appendAt (d : List (κ × List α)) (k : κ) (a : α) (p : κ → Bool) :
    (appendAt d k a).find? (p ·.1) =
      ((d.find? (p ·.1)).map fun row => (row.1, row.2 ++ if row.1 = k then [a] else [])).or
        (if p k then some (k, [a]) else none) := by
  induction d with
  | nil => cases hp : p k <;> simp [appendAt, hp]
  | cons row rest ih =>
    unfold appendAt
    by_cases hk : row.1 = k
    · rw [if_pos hk, List.find?_cons, List.find?_cons, hk]
      cases hp : p k with
      | true => simp [hk]
      | false =>
        cases hfind : rest.find? (p ·.1) with
        | none => rfl
        | some found =>
          have hne : found.1 ≠ k := fun heq => by simpa [heq, hp] using List.find?_some hfind
          simp [hne]
    · rw [if_neg hk, List.find?_cons, List.find?_cons, ih]
      cases p row.1 <;> simp [hk]

/-- The keys come in the order of the first item of each. -/
theorem pairwise_idxOf_groupBy (key : α → κ) (l : List α) :
    ((groupBy key l).map Prod.fst).Pairwise fun k k' =>
      (l.map key).idxOf k < (l.map key).idxOf k' := by
  induction l using List.reverseRecOn with
  | nil => exact List.Pairwise.nil
  | append_singleton l a ih =>
    have hmem : ∀ k ∈ (groupBy key l).map Prod.fst, k ∈ l.map key := by
      intro k hk
      obtain ⟨b, hb, rfl⟩ := ((groups_groupBy key l).mem_keys k).mp hk
      exact List.mem_map_of_mem hb
    have hold : ((groupBy key l).map Prod.fst).Pairwise fun k k' =>
        ((l ++ [a]).map key).idxOf k < ((l ++ [a]).map key).idxOf k' := by
      refine ih.imp_of_mem fun {k k'} hk hk' hlt => ?_
      rwa [List.map_append, List.idxOf_append_of_mem (hmem k hk),
        List.idxOf_append_of_mem (hmem k' hk')]
    rw [groupBy_append, map_fst_appendAt]
    split_ifs with hkey
    · exact hold
    · refine List.pairwise_append.mpr ⟨hold, List.pairwise_singleton _ _, ?_⟩
      intro k hk k' hk'
      have hnot : key a ∉ l.map key := fun h => hkey (by
        obtain ⟨b, hb, hsame⟩ := List.mem_map.mp h
        exact ((groups_groupBy key l).mem_keys _).mpr ⟨b, hb, hsame⟩)
      rw [List.mem_singleton.mp hk', List.map_append, List.idxOf_append_of_mem (hmem k hk),
        List.idxOf_append_of_notMem hnot]
      have hlt := List.idxOf_lt_length_of_mem (hmem k hk)
      omega

theorem sum_length_appendAt (d : List (κ × List α)) (k : κ) (a : α) :
    ((appendAt d k a).map (·.2.length)).sum = (d.map (·.2.length)).sum + 1 := by
  induction d with
  | nil => rfl
  | cons entry rest ih =>
    unfold appendAt
    by_cases hk : entry.1 = k
    · rw [if_pos hk]
      simp only [List.map_cons, List.sum_cons, List.length_append, List.length_singleton]
      omega
    · rw [if_neg hk]
      simp only [List.map_cons, List.sum_cons, ih]
      omega

/-- The dictionary holds every item once. -/
theorem sum_length_groupBy (key : α → κ) (l : List α) :
    ((groupBy key l).map (·.2.length)).sum = l.length := by
  induction l using List.reverseRecOn with
  | nil => rfl
  | append_singleton l a ih =>
    rw [groupBy_append, sum_length_appendAt, ih]
    simp

/-! ## What the items of a key have -/

/-- A group has no more than each member has if and only if members of a group have nothing. -/
theorem perm_group_iff (key : α → κ) {β : Type} {f : α → List β} :
    (∀ a ∈ l, ((l.filter fun b => key b = key a).flatMap f).Perm (f a)) ↔
      l.Pairwise fun a b => key a = key b → f a = [] ∧ f b = [] := by
  constructor
  · intro h
    rw [List.pairwise_iff_forall_sublist]
    intro a b hsublist hkey
    have hgroup : ∀ c, key c = key a → (f a).length + (f b).length
        ≤ ((l.filter fun b => key b = key c).flatMap f).length := by
      intro c hc
      have hpair := (hsublist.filter fun b => key b = key c).flatMap f
      have hboth : [a, b].filter (fun b => key b = key c) = [a, b] := by
        simp [hc, ← hkey]
      rw [hboth] at hpair
      simpa using hpair.length_le
    have ha := (h a (hsublist.subset (by simp))).length_eq
    have hb := (h b (hsublist.subset (by simp))).length_eq
    have hlea := hgroup a rfl
    have hleb := hgroup b hkey.symm
    constructor
    · apply List.length_eq_zero_iff.mp
      omega
    · apply List.length_eq_zero_iff.mp
      omega
  · intro h a ha
    have hmem : a ∈ l.filter fun b => key b = key a := by simpa using ha
    have hpairwise := h.sublist (List.filter_sublist (p := fun b => decide (key b = key a)))
    have hsame : ∀ b ∈ l.filter fun b => key b = key a, key b = key a := by
      intro b hb
      simpa using (List.mem_filter.mp hb).2
    obtain ⟨before, after, hsplit⟩ := List.append_of_mem hmem
    rw [hsplit] at hpairwise hsame ⊢
    rw [List.pairwise_append, List.pairwise_cons] at hpairwise
    have hbefore : before.flatMap f = [] := by
      rw [List.flatMap_eq_nil_iff]
      intro b hb
      exact (hpairwise.2.2 b hb a List.mem_cons_self (hsame b (by simp [hb]))).1
    have hafter : after.flatMap f = [] := by
      rw [List.flatMap_eq_nil_iff]
      intro b hb
      exact (hpairwise.2.1.1 b hb (hsame b (by simp [hb])).symm).2
    rw [List.flatMap_append, List.flatMap_cons, hbefore, hafter, List.nil_append, List.append_nil]

end OmnibaseCore
