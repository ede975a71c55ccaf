import Mathlib.Tactic

/-!
# Dictionaries

A dictionary as the list of its entries, in the order of insertion. `setItem` is `d[k] = v`, which
leaves a key that is there in its place, and `update` is `d.update(e)`. The keys of a dictionary
are distinct, which is a hypothesis where it matters.
-/

namespace OmnibaseCore.Dict

variable {κ ν : Type}

def keys (d : List (κ × ν)) : List κ := d.map Prod.fst

@[simp] theorem keys_nil : keys ([] : List (κ × ν)) = [] := rfl

@[simp] theorem keys_cons (e : κ × ν) (d : List (κ × ν)) : keys (e :: d) = e.1 :: keys d := rfl

@[simp] theorem keys_append (d d' : List (κ × ν)) : keys (d ++ d') = keys d ++ keys d' :=
  List.map_append

theorem mem_keys {d : List (κ × ν)} {k : κ} : k ∈ keys d ↔ ∃ v, (k, v) ∈ d := by
  unfold keys
  simp

theorem keys_map {μ : Type} (f : κ × ν → μ) (d : List (κ × ν)) :
    keys (d.map fun e => (e.1, f e)) = keys d := by
  unfold keys
  rw [List.map_map]
  rfl

variable [DecidableEq κ]

/-- `d[key] = value`, for the entry of the two. -/
def setItem (d : List (κ × ν)) (e : κ × ν) : List (κ × ν) :=
  if e.1 ∈ keys d then d.map fun e' => if e'.1 = e.1 then e else e' else d ++ [e]

/-- `d.update(d')`. -/
def update (d d' : List (κ × ν)) : List (κ × ν) := d'.foldl setItem d

/-! ## Lookup -/

section
variable {d d' : List (κ × ν)} {k : κ} {v : ν}

theorem lookup_cons_self (d : List (κ × ν)) (k : κ) (v : ν) :
    List.lookup k ((k, v) :: d) = some v := by
  rw [List.lookup_cons, beq_self_eq_true]

theorem lookup_cons_of_ne {k' : κ} (h : k ≠ k') (d : List (κ × ν)) (v : ν) :
    List.lookup k ((k', v) :: d) = List.lookup k d := by
  rw [List.lookup_cons, beq_eq_false_iff_ne.mpr h]

theorem mem_of_lookup (h : d.lookup k = some v) : (k, v) ∈ d := by
  obtain ⟨before, after, heq, -⟩ := List.lookup_eq_some_iff.mp h
  rw [heq]
  exact List.mem_append_right before List.mem_cons_self

theorem lookup_eq_none_iff : d.lookup k = none ↔ k ∉ keys d := by
  unfold keys
  rw [List.lookup_eq_none_iff, List.mem_map, not_exists]
  apply forall_congr'
  intro e
  rw [bne_iff_ne, not_and, ne_comm]

theorem exists_lookup_iff : (∃ v, d.lookup k = some v) ↔ k ∈ keys d := by
  rw [← Option.isSome_iff_exists, ← Option.ne_none_iff_isSome, ne_eq, lookup_eq_none_iff, not_not]

theorem lookup_eq_some_iff (hd : (keys d).Nodup) : d.lookup k = some v ↔ (k, v) ∈ d := by
  refine ⟨mem_of_lookup, fun hmem => ?_⟩
  induction d with
  | nil => exact nomatch hmem
  | cons e d ih =>
    rw [keys_cons, List.nodup_cons] at hd
    rcases List.mem_cons.mp hmem with rfl | hmem
    · exact lookup_cons_self d k v
    · have hne : k ≠ e.1 := fun heq => hd.1 (heq ▸ mem_keys.mpr ⟨v, hmem⟩)
      rw [lookup_cons_of_ne hne]
      exact ih hd.2 hmem

theorem lookup_append : (d ++ d').lookup k = (d.lookup k).or (d'.lookup k) := by
  induction d with
  | nil => rfl
  | cons e d ih =>
    rw [List.cons_append, List.lookup_cons, List.lookup_cons]
    cases k == e.1 with
    | true => rfl
    | false => exact ih

theorem lookup_eq_of_perm (h : d.Perm d') (hd : (keys d).Nodup) :
    d.lookup k = d'.lookup k := by
  have hd' : (keys d').Nodup := (h.map Prod.fst).nodup_iff.mp hd
  apply Option.ext
  intro v
  rw [lookup_eq_some_iff hd, lookup_eq_some_iff hd', h.mem_iff]

theorem lookup_map {μ : Type} (f : ν → μ) :
    (d.map fun e => (e.1, f e.2)).lookup k = (d.lookup k).map f := by
  induction d with
  | nil => rfl
  | cons e d ih =>
    rw [List.map_cons, List.lookup_cons, List.lookup_cons, ih]
    cases k == e.1 <;> rfl

theorem lookup_filter (hd : (keys d).Nodup) (p : κ × ν → Bool) :
    (d.filter p).lookup k = (d.lookup k).filter fun v => p (k, v) := by
  have hfilter : (keys (d.filter p)).Nodup :=
    hd.sublist (List.Sublist.map Prod.fst List.filter_sublist)
  apply Option.ext
  intro v
  rw [lookup_eq_some_iff hfilter, List.mem_filter, Option.filter_eq_some_iff,
    lookup_eq_some_iff hd]

end

/-! ## Assignment -/

section
variable (d : List (κ × ν)) (e : κ × ν)

theorem setItem_of_mem {d : List (κ × ν)} {e : κ × ν} (h : e.1 ∈ keys d) :
    setItem d e = d.map fun e' => if e'.1 = e.1 then e else e' :=
  if_pos h

theorem setItem_of_notMem {d : List (κ × ν)} {e : κ × ν} (h : e.1 ∉ keys d) :
    setItem d e = d ++ [e] :=
  if_neg h

theorem keys_setItem : keys (setItem d e) = if e.1 ∈ keys d then keys d else keys d ++ [e.1] := by
  by_cases h : e.1 ∈ keys d
  · rw [setItem_of_mem h, if_pos h]
    unfold keys
    rw [List.map_map]
    apply List.map_congr_left
    intro e' _
    show (if e'.1 = e.1 then e else e').1 = e'.1
    split_ifs with heq
    · exact heq.symm
    · rfl
  · rw [setItem_of_notMem h, if_neg h, keys_append]
    rfl

theorem mem_keys_setItem {k : κ} : k ∈ keys (setItem d e) ↔ k = e.1 ∨ k ∈ keys d := by
  rw [keys_setItem]
  split_ifs with h
  · constructor
    · exact Or.inr
    · rintro (rfl | hk)
      · exact h
      · exact hk
  · rw [List.mem_append, List.mem_singleton, or_comm]

theorem mem_of_mem_setItem {d : List (κ × ν)} {e e' : κ × ν} (h : e' ∈ setItem d e) :
    e' = e ∨ e' ∈ d := by
  unfold setItem at h
  split_ifs at h
  · obtain ⟨e'', he'', heq⟩ := List.mem_map.mp h
    split_ifs at heq
    · exact Or.inl heq.symm
    · exact Or.inr (heq ▸ he'')
  · rcases List.mem_append.mp h with h | h
    · exact Or.inr h
    · exact Or.inl (List.mem_singleton.mp h)

theorem nodup_keys_setItem {d : List (κ × ν)} (hd : (keys d).Nodup) :
    (keys (setItem d e)).Nodup := by
  rw [keys_setItem]
  split_ifs with h
  · exact hd
  · rw [List.nodup_append]
    refine ⟨hd, List.nodup_singleton _, fun k hk k' hk' heq => ?_⟩
    rw [List.mem_singleton.mp hk'] at heq
    exact h (heq ▸ hk)

theorem lookup_replace (k : κ) :
    (d.map fun e' => if e'.1 = e.1 then e else e').lookup k
      = if k = e.1 then (d.lookup k).map fun _ => e.2 else d.lookup k := by
  induction d with
  | nil => split_ifs <;> rfl
  | cons e' d ih =>
    rw [List.map_cons]
    by_cases heq : e'.1 = e.1
    · rw [if_pos heq]
      by_cases hk : k = e.1
      · rw [if_pos hk, hk, ← heq, lookup_cons_self, heq]
        exact lookup_cons_self _ _ _
      · have hk' : k ≠ e'.1 := fun h => hk (h.trans heq)
        rw [if_neg hk, lookup_cons_of_ne hk, lookup_cons_of_ne hk', ih, if_neg hk]
    · rw [if_neg heq]
      by_cases hk : k = e'.1
      · rw [hk, lookup_cons_self, if_neg heq, lookup_cons_self]
      · rw [lookup_cons_of_ne hk, lookup_cons_of_ne hk, ih]

theorem lookup_setItem (k : κ) :
    (setItem d e).lookup k = if k = e.1 then some e.2 else d.lookup k := by
  by_cases h : e.1 ∈ keys d
  · rw [setItem_of_mem h, lookup_replace]
    by_cases hk : k = e.1
    · obtain ⟨v, hv⟩ := exists_lookup_iff.mpr h
      rw [if_pos hk, if_pos hk, hk, hv]
      rfl
    · rw [if_neg hk, if_neg hk]
  · rw [setItem_of_notMem h, lookup_append]
    by_cases hk : k = e.1
    · rw [if_pos hk, hk, lookup_eq_none_iff.mpr h]
      exact lookup_cons_self _ _ _
    · rw [if_neg hk, lookup_cons_of_ne hk]
      exact Option.or_none

theorem setItem_of_lookup {d : List (κ × ν)} {k : κ} {v : ν} (hd : (keys d).Nodup)
    (h : d.lookup k = some v) : setItem d (k, v) = d := by
  rw [setItem_of_mem (exists_lookup_iff.mp ⟨v, h⟩)]
  refine (List.map_congr_left fun e' he' => ?_).trans (List.map_id d)
  split_ifs with heq
  · have hvalue := (lookup_eq_some_iff hd).mpr he'
    rw [heq, h, Option.some.injEq] at hvalue
    exact Prod.ext heq.symm hvalue
  · rfl

end

/-! ## Update -/

section
variable {d d' : List (κ × ν)} {k : κ}

theorem mem_keys_update : k ∈ keys (update d d') ↔ k ∈ keys d ∨ k ∈ keys d' := by
  unfold update
  induction d' generalizing d with
  | nil => simp
  | cons e d' ih =>
    rw [List.foldl_cons, ih, mem_keys_setItem, keys_cons, List.mem_cons, or_comm (a := k = e.1),
      or_assoc]

theorem lookup_update (hd' : (keys d').Nodup) :
    (update d d').lookup k = (d'.lookup k).or (d.lookup k) := by
  unfold update
  induction d' generalizing d with
  | nil => rfl
  | cons e d' ih =>
    rw [keys_cons, List.nodup_cons] at hd'
    rw [List.foldl_cons, ih hd'.2, lookup_setItem]
    by_cases hk : k = e.1
    · rw [if_pos hk, hk, lookup_eq_none_iff.mpr hd'.1, lookup_cons_self]
      rfl
    · rw [if_neg hk, lookup_cons_of_ne hk]

theorem lookup_foldl_update_of_notMem {ds : List (List (κ × ν))}
    (hds : ∀ d' ∈ ds, (keys d').Nodup) (hk : ∀ d' ∈ ds, k ∉ keys d') :
    (ds.foldl update d).lookup k = d.lookup k := by
  induction ds generalizing d with
  | nil => rfl
  | cons d' ds ih =>
    rw [List.forall_mem_cons] at hds hk
    rw [List.foldl_cons, ih hds.2 hk.2, lookup_update hds.1, lookup_eq_none_iff.mpr hk.1]
    rfl

theorem lookup_foldl_update_of_mem {ds : List (List (κ × ν))}
    (hds : ∀ d' ∈ ds, (keys d').Nodup)
    (hdisjoint : ds.Pairwise fun a b => ∀ k ∈ keys a, k ∉ keys b) (hd' : d' ∈ ds)
    (hk : k ∈ keys d') : (ds.foldl update d).lookup k = d'.lookup k := by
  induction ds generalizing d with
  | nil => exact nomatch hd'
  | cons a ds ih =>
    rw [List.forall_mem_cons] at hds
    rw [List.pairwise_cons] at hdisjoint
    rw [List.foldl_cons]
    rcases List.mem_cons.mp hd' with rfl | hd'
    · obtain ⟨v, hv⟩ := exists_lookup_iff.mpr hk
      rw [lookup_foldl_update_of_notMem hds.2 fun b hb => hdisjoint.1 b hb k hk,
        lookup_update hds.1, hv]
      rfl
    · exact ih hds.2 hdisjoint.2 hd'

end

end OmnibaseCore.Dict
