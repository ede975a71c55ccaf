import OmnibaseCore.Geometric.Similarity
import OmnibaseCore.Python.Dict

/-!
# Equality and normal forms of agent values

Equality of values does not depend on the order of the two (`AgentValue.eq_symm`), if that of
objects of other classes does not, and a normal form is a value of the same kind
(`AgentValue.Proper.normalize`). Proofs about values go by induction on `Proper`, which says of a
dictionary that its keys are distinct.
-/

namespace OmnibaseCore.Geometric

variable {i : ClassifierInterpreter} {objects : Prop} {a b : AgentValue}

/-- A value of the language: the keys of every dictionary in it are distinct. Objects of other
classes occur only if `objects` holds. -/
inductive AgentValue.Proper (objects : Prop) : AgentValue → Prop
  | none : Proper objects .none
  | bool (x : Bool) : Proper objects (.bool x)
  | int (n : ℤ) : Proper objects (.int n)
  | float (q : ℚ) : Proper objects (.float q)
  | str (s : String) : Proper objects (.str s)
  | list {items : List AgentValue} (hitems : ∀ v ∈ items, v.Proper objects) :
    Proper objects (.list items)
  | dict {entries : Entries} (hkeys : entries.keys.Nodup)
    (hvalues : ∀ e ∈ entries, AgentValue.Proper objects e.2) : Proper objects (.dict entries)
  | obj (cls : String) (address : ℕ) (h : objects) : Proper objects (.obj cls address)

/-! ## Equality -/

theorem eqItems_iff {l m : List AgentValue} :
    eqItems i l m = true ↔ List.Forall₂ (fun a b => a.eq i b = true) l m := by
  induction l generalizing m with
  | nil =>
    cases m with
    | nil => simp [eqItems]
    | cons b m => simp [eqItems]
  | cons a l ih =>
    cases m with
    | nil => simp [eqItems]
    | cons b m => rw [eqItems, Bool.and_eq_true, ih, List.forall₂_cons]

variable {l m : Entries}

theorem eqEntries_iff :
    eqEntries i l m = true ↔ ∀ e ∈ l, ∃ v, m.lookup e.1 = some v ∧ e.2.eq i v = true := by
  induction l with
  | nil => simp [eqEntries]
  | cons e l ih =>
    rcases e with ⟨key, a⟩
    rw [eqEntries, Bool.and_eq_true, ih, List.forall_mem_cons]
    apply and_congr_left'
    cases m.lookup key with
    | none => simp
    | some v => simp

theorem eq_list_iff {l m : List AgentValue} :
    AgentValue.eq i (.list l) (.list m) = true ↔
      List.Forall₂ (fun a b => a.eq i b = true) l m := by
  rw [AgentValue.eq, eqItems_iff]

theorem eq_dict_iff : AgentValue.eq i (.dict l) (.dict m) = true ↔ l.length = m.length ∧
      ∀ e ∈ l, ∃ v, m.lookup e.1 = some v ∧ e.2.eq i v = true := by
  rw [AgentValue.eq, Bool.and_eq_true, decide_eq_true_eq, eqEntries_iff]

theorem eqItems_symm {l m : List AgentValue} (h : ∀ v ∈ l, ∀ w ∈ m, v.eq i w = w.eq i v) :
    eqItems i l m = eqItems i m l := by
  induction l generalizing m with
  | nil => cases m <;> rfl
  | cons a l ih =>
    cases m with
    | nil => rfl
    | cons b m =>
      rw [eqItems, eqItems, h a List.mem_cons_self b List.mem_cons_self,
        ih fun v hv w hw => h v (List.mem_cons_of_mem a hv) w (List.mem_cons_of_mem b hw)]

variable {k : String}

theorem mem_keys_of_length_eq (hl : l.keys.Nodup) (hlength : l.length = m.length)
    (hsub : ∀ k ∈ l.keys, k ∈ m.keys) (hk : k ∈ m.keys) : k ∈ l.keys := by
  have hlength' : m.keys.length ≤ l.keys.length := by
    unfold Entries.keys
    rw [List.length_map, List.length_map]
    exact hlength.ge
  have hperm := (hl.subperm hsub).perm_of_length_le hlength'
  exact hperm.mem_iff.mpr hk

theorem eq_dict_symm (hl : l.keys.Nodup) (hm : m.keys.Nodup)
    (hvalues : ∀ e ∈ l, ∀ v, (e.1, v) ∈ m → e.2.eq i v = true → v.eq i e.2 = true)
    (h : AgentValue.eq i (.dict l) (.dict m) = true) :
    AgentValue.eq i (.dict m) (.dict l) = true := by
  rw [eq_dict_iff] at h ⊢
  refine ⟨h.1.symm, fun e he => ?_⟩
  have hsub : ∀ k ∈ l.keys, k ∈ m.keys := by
    intro k hk
    obtain ⟨v, hv⟩ := Dict.mem_keys.mp hk
    obtain ⟨w, hw, -⟩ := h.2 (k, v) hv
    exact Dict.exists_lookup_iff.mp ⟨w, hw⟩
  have hmem : e.1 ∈ l.keys :=
    mem_keys_of_length_eq hl h.1 hsub (Dict.mem_keys.mpr ⟨e.2, he⟩)
  obtain ⟨v, hv⟩ := Dict.mem_keys.mp hmem
  obtain ⟨w, hw, heq⟩ := h.2 (e.1, v) hv
  rw [(Dict.lookup_eq_some_iff hm).mpr he, Option.some.injEq] at hw
  refine ⟨v, (Dict.lookup_eq_some_iff hl).mpr hv, ?_⟩
  rw [← hw] at heq
  exact hvalues (e.1, v) hv e.2 he heq

/-- Equality is symmetric. -/
theorem AgentValue.eq_symm (hobjects : objects → ∀ a b, i.eqObj a b = i.eqObj b a)
    (ha : a.Proper objects) (hb : b.Proper objects) : a.eq i b = b.eq i a := by
  induction ha generalizing b with
  | none => cases hb <;> simp [AgentValue.eq, AgentValue.number, *]
  | bool x => cases hb <;> simp [AgentValue.eq, AgentValue.number, eq_comm, *]
  | int n => cases hb <;> simp [AgentValue.eq, AgentValue.number, eq_comm, *]
  | float q => cases hb <;> simp [AgentValue.eq, AgentValue.number, eq_comm, *]
  | str s => cases hb <;> simp [AgentValue.eq, AgentValue.number, eq_comm, *]
  | obj cls address h => cases hb <;> simp [AgentValue.eq, eq_comm, hobjects h]
  | list hitems ih =>
    cases hb with
    | @list m hm =>
      rw [AgentValue.eq, AgentValue.eq]
      exact eqItems_symm fun v hv w hw => ih v hv (hm w hw)
    | obj cls address h => simp [AgentValue.eq, hobjects h]
    | _ => simp [AgentValue.eq, AgentValue.number]
  | @dict l hl hvalues ih =>
    cases hb with
    | @dict m hm hvalues' =>
      rw [Bool.eq_iff_iff]
      constructor
      · refine eq_dict_symm hl hm fun e he v hv heq => ?_
        rwa [← ih e he (hvalues' (e.1, v) hv)]
      · refine eq_dict_symm hm hl fun e he v hv heq => ?_
        rwa [ih (e.1, v) hv (hvalues' e he)]
    | obj cls address h => simp [AgentValue.eq, hobjects h]
    | _ => simp [AgentValue.eq, AgentValue.number]

/-! ## Normal forms -/

theorem keys_normalize (depthLeft : ℕ) (entries : Entries) :
    Entries.keys ((sortedAsc Prod.fst entries).map fun e => (e.1, normalize depthLeft e.2))
      = Entries.keys (sortedAsc Prod.fst entries) :=
  Dict.keys_map (fun e => normalize depthLeft e.2) _

variable {entries : Entries}

theorem nodup_keys_sortedAsc (h : entries.keys.Nodup) :
    (Entries.keys (sortedAsc Prod.fst entries)).Nodup :=
  ((perm_sortedAsc Prod.fst entries).map Prod.fst).nodup_iff.mpr h

/-- A normal form is a value of the same kind. -/
theorem AgentValue.Proper.normalize (ha : a.Proper objects) (depthLeft : ℕ) :
    (normalize depthLeft a).Proper objects := by
  induction ha generalizing depthLeft with
  | @list items hitems ih =>
    cases depthLeft with
    | zero => exact .list hitems
    | succ depthLeft =>
      refine .list fun v hv => ?_
      obtain ⟨w, hw, rfl⟩ := List.mem_map.mp hv
      exact ih w hw depthLeft
  | @dict entries hkeys hvalues ih =>
    cases depthLeft with
    | zero => exact .dict hkeys hvalues
    | succ depthLeft =>
      refine .dict ?_ fun e he => ?_
      · rw [keys_normalize]
        exact nodup_keys_sortedAsc hkeys
      · obtain ⟨e', he', rfl⟩ := List.mem_map.mp he
        exact ih e' ((perm_sortedAsc Prod.fst entries).mem_iff.mp he') depthLeft
  | none => cases depthLeft <;> exact .none
  | bool x => cases depthLeft <;> exact .bool x
  | int n => cases depthLeft <;> exact .int n
  | float q => cases depthLeft <;> exact .float q
  | str s => cases depthLeft <;> exact .str s
  | obj cls address h => cases depthLeft <;> exact .obj cls address h

theorem AgentValue.Proper.nodup_keys (h : (AgentValue.dict entries).Proper objects) :
    entries.keys.Nodup := by
  cases h with
  | dict hkeys hvalues => exact hkeys

/-- The value at a key of a dictionary. -/
theorem AgentValue.Proper.get (h : (AgentValue.dict entries).Proper objects) (k : String) :
    (entries.get k).Proper objects := by
  unfold Entries.get
  cases hlookup : entries.lookup k with
  | none => exact .none
  | some v =>
    cases h with
    | dict hkeys hvalues => exact hvalues (k, v) (Dict.mem_of_lookup hlookup)

/-! ## Common keys -/

theorem mem_commonKeys : k ∈ commonKeys l m ↔ k ∈ l.keys ∧ k ∈ m.keys := by
  unfold commonKeys
  rw [(perm_sortedAsc id _).mem_iff, List.mem_filter, decide_eq_true_eq]

theorem nodup_commonKeys {l : Entries} (hl : l.keys.Nodup) (m : Entries) :
    (commonKeys l m).Nodup :=
  (perm_sortedAsc id _).nodup_iff.mpr (hl.filter _)

theorem commonKeys_symm (hl : l.keys.Nodup) (hm : m.keys.Nodup) :
    commonKeys l m = commonKeys m l := by
  unfold commonKeys
  apply sortedAsc_eq_of_perm id Function.injective_id
  rw [List.perm_ext_iff_of_nodup (hl.filter _) (hm.filter _)]
  intro k
  simp [and_comm]

theorem mem_allKeys : k ∈ allKeys l m ↔ k ∈ l.keys ∨ k ∈ m.keys := by
  unfold allKeys
  rw [List.mem_append, List.mem_filter, decide_eq_true_eq]
  by_cases hk : k ∈ l.keys
  · simp [hk]
  · simp [hk]

theorem nodup_allKeys (hl : l.keys.Nodup) (hm : m.keys.Nodup) : (allKeys l m).Nodup := by
  unfold allKeys
  rw [List.nodup_append]
  refine ⟨hl, hm.filter _, fun k hk k' hk' heq => ?_⟩
  rw [List.mem_filter, decide_eq_true_eq] at hk'
  exact hk'.2 (heq ▸ hk)

theorem perm_allKeys_symm (hl : l.keys.Nodup) (hm : m.keys.Nodup) :
    (allKeys l m).Perm (allKeys m l) := by
  rw [List.perm_ext_iff_of_nodup (nodup_allKeys hl hm) (nodup_allKeys hm hl)]
  intro k
  rw [mem_allKeys, mem_allKeys, or_comm]

end OmnibaseCore.Geometric
