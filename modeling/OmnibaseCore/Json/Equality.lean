import OmnibaseCore.Json.Value
import OmnibaseCore.Python.Dict

/-!
# Equality of values

`a == b` of values without double keys is symmetric and transitive if that of leaves is
(`pyEq_symm`, `pyEq_trans`). It need not be reflexive: a `nan` is not equal to itself.
-/

namespace OmnibaseCore

/-! ## Leaves -/

theorem StrictJsonPrimitive.pyEq_comm (a b : StrictJsonPrimitive) : a.pyEq b = b.pyEq a := by
  unfold pyEq
  cases ha : a.number with
  | none =>
    cases hb : b.number with
    | none => simp [eq_comm]
    | some y => rfl
  | some x =>
    cases hb : b.number with
    | none => rfl
    | some y =>
      dsimp only
      by_cases h : x = y
      · rw [h]
      · simp [h, ne_comm.mp h]

theorem StrictJsonPrimitive.pyEq_trans {a b c : StrictJsonPrimitive} (hab : a.pyEq b = true)
    (hbc : b.pyEq c = true) : a.pyEq c = true := by
  unfold pyEq at *
  cases ha : a.number <;> cases hb : b.number <;> cases hc : c.number <;>
    simp only [ha, hb, hc, Bool.false_eq_true, decide_eq_true_eq, Bool.and_eq_true] at hab hbc ⊢
  · exact hab.trans hbc
  · exact ⟨hab.1.trans hbc.1, hab.2⟩

theorem JsonPrimitive.pyEq_symm {a b : JsonPrimitive} (h : a.pyEq b = true) : b.pyEq a = true := by
  unfold pyEq at *
  cases a <;> cases b <;> simp at h ⊢
  · rw [StrictJsonPrimitive.pyEq_comm]
    exact h
  · exact h.symm
  · exact ⟨h.1.symm, h.2.symm⟩

theorem JsonPrimitive.pyEq_trans {a b c : JsonPrimitive} (hab : a.pyEq b = true)
    (hbc : b.pyEq c = true) : a.pyEq c = true := by
  unfold pyEq at *
  cases a <;> cases b <;> cases c <;> simp at hab hbc ⊢
  · exact StrictJsonPrimitive.pyEq_trans hab hbc
  · exact hab.trans hbc
  · exact ⟨hab.1.trans hbc.1, hab.2.trans hbc.2⟩

/-! ## Trees -/

namespace Json

variable {α : Type} {eq : α → α → Bool}

theorem uniqueKeys_list {items : List (Json α)} :
    UniqueKeys (.list items) ↔ ∀ v ∈ items, UniqueKeys v := by
  unfold UniqueKeys
  rw [fold_list, List.forall_mem_map]

theorem zipWith_all_iff {β γ : Type} {f : β → γ → Bool} {l : List β} {l' : List γ} :
    (l.length = l'.length ∧ (List.zipWith (fun f c => f c) (l.map f) l').all id = true) ↔
      List.Forall₂ (fun b c => f b c = true) l l' := by
  induction l generalizing l' with
  | nil => cases l' <;> simp
  | cons b l ih =>
    cases l' with
    | nil => simp
    | cons c l' =>
      rw [List.forall₂_cons, ← ih]
      simp
      tauto

theorem pyEq_list_iff {items : List (Json α)} {w : Json α} :
    pyEq eq (.list items) w = true ↔
      ∃ items', w = .list items' ∧ List.Forall₂ (fun v w => pyEq eq v w = true) items items' := by
  unfold pyEq
  rw [fold_list]
  cases w with
  | list items' =>
    dsimp only
    rw [List.length_map, Bool.and_eq_true, decide_eq_true_eq, zipWith_all_iff]
    simp
  | _ => simp

variable {entries : List (String × Json α)}

theorem lookup_pyEq_iff {k : String} {v : Json α} :
    (match entries.lookup k with
      | none => false
      | some w => pyEq eq v w) = true ↔
      ∃ w, entries.lookup k = some w ∧ pyEq eq v w = true := by
  cases entries.lookup k <;> simp

theorem pyEq_dict_iff {w : Json α} :
    pyEq eq (.dict entries) w = true ↔
      ∃ entries', w = .dict entries' ∧ entries.length = entries'.length ∧
        ∀ e ∈ entries, ∃ v, entries'.lookup e.1 = some v ∧ pyEq eq e.2 v = true := by
  unfold pyEq
  rw [fold_dict]
  cases w with
  | dict entries' =>
    dsimp only
    rw [List.length_map, Bool.and_eq_true, decide_eq_true_eq, List.all_map, List.all_eq_true]
    constructor
    · intro h
      exact ⟨entries', rfl, h.1, fun e he => lookup_pyEq_iff.mp (h.2 e he)⟩
    · intro h
      obtain ⟨_, heq, hlength, hentries⟩ := h
      obtain rfl := Json.dict.inj heq
      exact ⟨hlength, fun e he => lookup_pyEq_iff.mpr (hentries e he)⟩
  | _ => simp

theorem mem_keys_of_length {β γ : Type} {d : List (String × β)} {d' : List (String × γ)}
    (hd : (Dict.keys d).Nodup) (hlength : d.length = d'.length)
    (hsub : ∀ e ∈ d, e.1 ∈ Dict.keys d') {k : String} (hk : k ∈ Dict.keys d') :
    k ∈ Dict.keys d := by
  have hsubset : Dict.keys d ⊆ Dict.keys d' := by
    intro k hk
    obtain ⟨v, hv⟩ := Dict.mem_keys.mp hk
    exact hsub (k, v) hv
  have hle : (Dict.keys d').length ≤ (Dict.keys d).length := by
    unfold Dict.keys
    rw [List.length_map, List.length_map, hlength]
  exact ((hd.subperm hsubset).perm_of_length_le hle).mem_iff.mpr hk

/-- `==` does not depend on the order of two values with unique keys. -/
theorem pyEq_symm (heq : ∀ a b, eq a b = true → eq b a = true) {v w : Json α}
    (hv : v.UniqueKeys) (hw : w.UniqueKeys) (h : pyEq eq v w = true) : pyEq eq w v = true := by
  induction v generalizing w with
  | null =>
    cases w with
    | null => rfl
    | _ => exact nomatch h
  | prim a =>
    cases w with
    | prim b => exact heq a b h
    | _ => exact nomatch h
  | list items ih =>
    obtain ⟨items', rfl, hitems⟩ := pyEq_list_iff.mp h
    rw [uniqueKeys_list] at hv hw
    rw [pyEq_list_iff]
    refine ⟨items, rfl, ?_⟩
    clear h
    induction hitems with
    | nil => exact List.Forall₂.nil
    | @cons v w items items' hvw _ ihitems =>
      rw [List.forall_mem_cons] at hv hw ih
      exact List.Forall₂.cons (ih.1 hv.1 hw.1 hvw) (ihitems ih.2 hv.2 hw.2)
  | dict entries ih =>
    obtain ⟨entries', rfl, hlength, hentries⟩ := pyEq_dict_iff.mp h
    rw [uniqueKeys_dict] at hv hw
    rw [pyEq_dict_iff]
    refine ⟨entries, rfl, hlength.symm, fun e he => ?_⟩
    -- a key of the second is one of the first, and is found there
    have hkey : e.1 ∈ Dict.keys entries :=
      mem_keys_of_length hv.1 hlength
        (fun e he => Dict.exists_lookup_iff.mp ((hentries e he).imp fun _ h => h.1))
        (Dict.mem_keys.mpr ⟨e.2, he⟩)
    obtain ⟨v, hlookup⟩ := Dict.exists_lookup_iff.mpr hkey
    have hmem := Dict.mem_of_lookup hlookup
    obtain ⟨v', hlookup', hequal⟩ := hentries _ hmem
    rw [(Dict.lookup_eq_some_iff hw.1).mpr (show (e.1, e.2) ∈ entries' from he),
      Option.some.injEq] at hlookup'
    rw [← hlookup'] at hequal
    exact ⟨v, hlookup, ih _ hmem (hv.2 _ hmem) (hw.2 e he) hequal⟩

theorem pyEq_trans (heq : ∀ a b c, eq a b = true → eq b c = true → eq a c = true)
    {u v w : Json α} (huv : pyEq eq u v = true) (hvw : pyEq eq v w = true) :
    pyEq eq u w = true := by
  induction u generalizing v w with
  | null =>
    cases v with
    | null => exact hvw
    | _ => exact nomatch huv
  | prim a =>
    cases v with
    | prim b =>
      cases w with
      | prim c => exact heq a b c huv hvw
      | _ => exact nomatch hvw
    | _ => exact nomatch huv
  | list items ih =>
    obtain ⟨items', rfl, hitems⟩ := pyEq_list_iff.mp huv
    obtain ⟨items'', rfl, hitems'⟩ := pyEq_list_iff.mp hvw
    rw [pyEq_list_iff]
    refine ⟨items'', rfl, ?_⟩
    clear huv hvw
    induction hitems generalizing items'' with
    | nil =>
      cases hitems'
      exact List.Forall₂.nil
    | cons huv _ ihitems =>
      rw [List.forall_mem_cons] at ih
      rcases hitems' with _ | ⟨hvw, hrest⟩
      exact List.Forall₂.cons (ih.1 huv hvw) (ihitems ih.2 _ hrest)
  | dict entries ih =>
    obtain ⟨entries', rfl, hlength, hentries⟩ := pyEq_dict_iff.mp huv
    obtain ⟨entries'', rfl, hlength', hentries'⟩ := pyEq_dict_iff.mp hvw
    rw [pyEq_dict_iff]
    refine ⟨entries'', rfl, hlength.trans hlength', fun e he => ?_⟩
    obtain ⟨v, hv, hequal⟩ := hentries e he
    obtain ⟨w, hw, hequal'⟩ := hentries' _ (Dict.mem_of_lookup hv)
    exact ⟨w, hw, ih e he hequal hequal'⟩

end Json

end OmnibaseCore
