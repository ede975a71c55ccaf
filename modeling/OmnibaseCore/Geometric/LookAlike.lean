import OmnibaseCore.Geometric.ClassifierTheorems
import OmnibaseCore.Geometric.SimilarityTheorems

/-!
# Values that look alike

Similarity compares texts by their pairs of neighbours and lists by the texts of their items, both
without the order. So it is one for values that look alike (`computeSimilarity_spec`), and means
"identical" for those only that look alike and are equal (`similarityLaw_iff`).
-/

namespace OmnibaseCore.Geometric

variable {i : ClassifierInterpreter} {objects : Prop} {a b v : AgentValue} {l m : Entries} {n : ℕ}

/-! ## Normal forms -/

/-- The items of the normal form of a dictionary. -/
def normalEntries (depthLeft : ℕ) (entries : Entries) : Entries :=
  (sortedAsc Prod.fst entries).map fun e => (e.1, normalize depthLeft e.2)

variable (depthLeft : ℕ)

theorem normalize_dict (entries : Entries) :
    normalize (depthLeft + 1) (.dict entries) = .dict (normalEntries depthLeft entries) := rfl

theorem normalize_of_leaf (hlist : ∀ items, v ≠ .list items) (hdict : ∀ entries, v ≠ .dict entries)
    (depthLeft : ℕ) : normalize depthLeft v = v := by
  cases depthLeft with
  | zero => rfl
  | succ depthLeft =>
    cases v with
    | list items => exact absurd rfl (hlist items)
    | dict entries => exact absurd rfl (hdict entries)
    | _ => rfl

theorem normalize_normalize (v : AgentValue) :
    normalize depthLeft (normalize depthLeft v) = normalize depthLeft v := by
  induction depthLeft generalizing v with
  | zero => rfl
  | succ depthLeft ih =>
    cases v with
    | list items =>
      rw [normalize, normalize, List.map_map]
      congr 1
      apply List.map_congr_left
      intro w _
      exact ih w
    | dict entries =>
      have hsorted : sortedAsc Prod.fst (normalEntries depthLeft entries)
          = normalEntries depthLeft entries := by
        have hmap := @sortedAsc_map _ String _ Prod.fst _ Prod.fst
          (fun e : String × AgentValue => (e.1, normalize depthLeft e.2)) (fun _ => rfl)
        unfold normalEntries
        rw [hmap, sortedAsc_sortedAsc]
      rw [normalize_dict, normalize_dict, normalEntries, hsorted, normalEntries, List.map_map]
      congr 1
      apply List.map_congr_left
      intro e _
      exact Prod.ext rfl (ih e.2)
    | _ => rfl

theorem mem_keys_normalEntries {depthLeft : ℕ} {entries : Entries} {k : String} :
    k ∈ Entries.keys (normalEntries depthLeft entries) ↔ k ∈ entries.keys := by
  unfold normalEntries
  rw [keys_normalize]
  exact ((perm_sortedAsc Prod.fst entries).map Prod.fst).mem_iff

theorem nodup_keys_normalEntries (h : l.keys.Nodup) (depthLeft : ℕ) :
    (Entries.keys (normalEntries depthLeft l)).Nodup := by
  unfold normalEntries
  rw [keys_normalize]
  exact nodup_keys_sortedAsc h

theorem lookup_normalEntries (h : l.keys.Nodup) (depthLeft : ℕ) (k : String) :
    (normalEntries depthLeft l).lookup k = (l.lookup k).map (normalize depthLeft) := by
  unfold normalEntries
  rw [Dict.lookup_map, Dict.lookup_eq_of_perm (perm_sortedAsc Prod.fst l) (nodup_keys_sortedAsc h)]

theorem get_normalEntries (h : l.keys.Nodup) (depthLeft : ℕ) (k : String) :
    Entries.get (normalEntries depthLeft l) k = normalize depthLeft (l.get k) := by
  unfold Entries.get
  rw [lookup_normalEntries h]
  cases l.lookup k with
  | none => cases depthLeft <;> rfl
  | some v => rfl

theorem forall₂_congr_of_mem {α β : Type} {R S : α → β → Prop} {l : List α} {m : List β}
    (h : ∀ x ∈ l, ∀ y ∈ m, (R x y ↔ S x y)) : List.Forall₂ R l m ↔ List.Forall₂ S l m := by
  induction l generalizing m with
  | nil => rw [List.forall₂_nil_left_iff, List.forall₂_nil_left_iff]
  | cons x l ih =>
    cases m with
    | nil => exact iff_of_false (fun h => nomatch h) (fun h => nomatch h)
    | cons y m =>
      rw [List.forall₂_cons, List.forall₂_cons, h x List.mem_cons_self y List.mem_cons_self]
      apply and_congr_right'
      exact ih fun x hx y hy => h x (List.mem_cons_of_mem _ hx) y (List.mem_cons_of_mem _ hy)

/-- Normalizing does not change which values are equal. -/
theorem eq_normalize (ha : a.Proper False) (hb : b.Proper False) (depthLeft : ℕ) :
    (normalize depthLeft a).eq i (normalize depthLeft b) = a.eq i b := by
  induction ha generalizing b depthLeft with
  | @list items hitems ih =>
    cases depthLeft with
    | zero => rfl
    | succ depthLeft =>
      cases hb with
      | @list items' hitems' =>
        rw [Bool.eq_iff_iff, normalize, normalize, eq_list_iff, eq_list_iff,
          List.forall₂_map_left_iff, List.forall₂_map_right_iff]
        apply forall₂_congr_of_mem
        intro v hv w hw
        rw [ih v hv (hitems' w hw)]
      | obj cls address h => exact h.elim
      | _ => rfl
  | @dict l hl hvalues ih =>
    cases depthLeft with
    | zero => rfl
    | succ depthLeft =>
      cases hb with
      | @dict m hm hvalues' =>
        rw [Bool.eq_iff_iff, normalize_dict, normalize_dict, eq_dict_iff, eq_dict_iff]
        have hlength : ∀ l : Entries, (normalEntries depthLeft l).length = l.length := by
          intro l
          unfold normalEntries
          rw [List.length_map, (perm_sortedAsc Prod.fst l).length_eq]
        rw [hlength, hlength]
        apply and_congr_right'
        have hmem : ∀ P : String × AgentValue → Prop, (∀ e ∈ normalEntries depthLeft l, P e) ↔
            ∀ e ∈ l, P (e.1, normalize depthLeft e.2) := by
          intro P
          unfold normalEntries
          rw [List.forall_mem_map]
          simp only [(perm_sortedAsc Prod.fst l).mem_iff]
        rw [hmem]
        refine forall₂_congr fun e he => ?_
        rw [lookup_normalEntries hm]
        cases hlookup : m.lookup e.1 with
        | none => simp
        | some w =>
          have hw := hvalues' _ (Dict.mem_of_lookup hlookup)
          simp [ih e he hw]
      | obj cls address h => exact h.elim
      | _ => rfl
  | obj cls address h => exact h.elim
  | _ =>
    cases hb with
    | obj cls address h => exact h.elim
    | _ => cases depthLeft <;> rfl

/-! ## Texts of normal forms -/

theorem jsonItems_eq_mapM (items : List AgentValue) :
    jsonItems i items = items.mapM fun v => v.json i := by
  induction items with
  | nil => rfl
  | cons v items ih => rw [jsonItems, List.mapM_cons, ih]

def jsonEntry (i : ClassifierInterpreter) (e : String × AgentValue) :
    Except PyException (String × String) := do
  let text ← e.2.json i
  return (e.1, text)

theorem jsonEntries_eq_mapM (entries : Entries) :
    jsonEntries i entries = entries.mapM (jsonEntry i) := by
  induction entries with
  | nil => rfl
  | cons e entries ih =>
    rcases e with ⟨key, v⟩
    rw [jsonEntries, List.mapM_cons, ih]
    unfold jsonEntry
    cases v.json i <;> rfl

theorem map_fst_of_mapM_jsonEntry {entries : Entries} {texts : List (String × String)}
    (h : entries.mapM (jsonEntry i) = .ok texts) : texts.map Prod.fst = entries.keys := by
  induction entries generalizing texts with
  | nil =>
    rw [← Except.ok.inj h]
    rfl
  | cons e entries ih =>
    rw [List.mapM_cons] at h
    rcases bind_eq_ok h with ⟨text, htext, h⟩
    rcases bind_eq_ok h with ⟨texts', htexts', h⟩
    rcases bind_eq_ok htext with ⟨json, -, htext⟩
    rw [← Except.ok.inj h, List.map_cons, ih htexts', ← Except.ok.inj htext]
    rfl

theorem braced_perm {texts texts' : List (String × String)} (hkeys : (texts.map Prod.fst).Nodup)
    (h : texts.Perm texts') : braced texts = braced texts' := by
  unfold braced
  rw [sortedAsc_eq_of_perm_of_injOn Prod.fst (List.inj_on_of_nodup_map hkeys) h]

theorem json_normalize (hv : v.Proper objects) (depthLeft : ℕ) {text : String}
    (h : v.json i = .ok text) : (normalize depthLeft v).json i = .ok text := by
  induction hv generalizing depthLeft text with
  | @list items hitems ih =>
    cases depthLeft with
    | zero => exact h
    | succ depthLeft =>
      rw [AgentValue.json, jsonItems_eq_mapM] at h
      rcases bind_eq_ok h with ⟨texts, htexts, h⟩
      have hnormal : (items.map (normalize depthLeft)).mapM (fun v => v.json i) = .ok texts := by
        rw [List.mapM_map]
        exact mapM_ok_of_imp (fun w hw _ => ih w hw depthLeft) htexts
      rw [normalize, AgentValue.json, jsonItems_eq_mapM, hnormal]
      exact h
  | @dict entries hkeys hvalues ih =>
    cases depthLeft with
    | zero => exact h
    | succ depthLeft =>
      rw [AgentValue.json, jsonEntries_eq_mapM] at h
      rcases bind_eq_ok h with ⟨texts, htexts, h⟩
      have hperm := perm_sortedAsc Prod.fst entries
      obtain ⟨texts', htexts', hsame⟩ :=
        exists_mapM_of_perm (hperm.symm.map fun e => (jsonEntry i e).toOption) htexts
      have hnormal : (normalEntries depthLeft entries).mapM (jsonEntry i) = .ok texts' := by
        unfold normalEntries
        rw [List.mapM_map]
        refine mapM_ok_of_imp (fun e he c hc => ?_) htexts'
        rcases bind_eq_ok hc with ⟨json, hjson, hc⟩
        rw [Function.comp_apply, jsonEntry, ih e (hperm.mem_iff.mp he) depthLeft hjson]
        exact hc
      rw [normalize_dict, AgentValue.json, jsonEntries_eq_mapM, hnormal, ← h]
      have hnodup : (texts.map Prod.fst).Nodup := by
        rw [map_fst_of_mapM_jsonEntry htexts]
        exact hkeys
      exact congrArg Except.ok (braced_perm hnodup hsame).symm
  | _ => cases depthLeft <;> exact h

/-! ## Means of similarities -/

variable {sims : List ℚ}

theorem sum_eq_length_iff (h : ∀ q ∈ sims, q ≤ 1) :
    sims.sum ≤ sims.length ∧ (sims.sum = sims.length ↔ ∀ q ∈ sims, q = 1) := by
  induction sims with
  | nil => simp
  | cons q sims ih =>
    rw [List.forall_mem_cons] at h ⊢
    obtain ⟨hle, hiff⟩ := ih h.2
    rw [List.sum_cons, List.length_cons, Nat.cast_succ, ← hiff]
    refine ⟨by linarith [h.1], fun hsum => ⟨?_, ?_⟩, fun hall => by linarith [hall.1, hall.2]⟩
    · linarith [h.1]
    · linarith [h.1]

theorem measures_mean (hne : sims ≠ []) (h : ∀ q ∈ sims, 0 ≤ q ∧ q ≤ 1) :
    Measures (∀ q ∈ sims, q = 1) (mean sims) := by
  have hpos : (0 : ℚ) < sims.length := by exact_mod_cast List.length_pos_iff.mpr hne
  obtain ⟨hle, hiff⟩ := sum_eq_length_iff fun q hq => (h q hq).2
  unfold mean
  refine ⟨div_nonneg (List.sum_nonneg fun q hq => (h q hq).1) hpos.le, ?_, ?_⟩
  · exact (div_le_one hpos).mpr hle
  · rw [div_eq_one_iff_eq hpos.ne', hiff]

theorem measures_blend {common all : ℕ} (hle : common ≤ all) (hall : 0 < all)
    (hlength : sims.length = common) (h : ∀ q ∈ sims, 0 ≤ q ∧ q ≤ 1) :
    Measures (common = all ∧ ∀ q ∈ sims, q = 1) (blend common all sims) := by
  have hpos : (0 : ℚ) < all := by exact_mod_cast hall
  have hratio : (common / all : ℚ) = 1 ↔ common = all := by
    rw [div_eq_one_iff_eq hpos.ne', Nat.cast_inj]
  unfold blend
  by_cases heq : common = all
  · rw [if_pos (hratio.mpr heq)]
    have hne : sims ≠ [] := by
      rw [← List.length_pos_iff]
      omega
    exact (measures_mean hne h).congr (and_iff_right heq).symm
  · rw [if_neg (hratio.not.mpr heq)]
    have hmean : 0 ≤ mean sims ∧ mean sims ≤ 1 := by
      by_cases hne : sims = []
      · rw [hne, mean_nil]
        exact ⟨le_rfl, zero_le_one⟩
      · exact ⟨(measures_mean hne h).nonneg, (measures_mean hne h).le_one⟩
    have hless : (common / all : ℚ) < 1 := by
      rw [div_lt_one hpos, Nat.cast_lt]
      omega
    have hkeys : (0 : ℚ) ≤ common / all := by positivity
    refine ⟨by linarith, by linarith, iff_of_false ?_ fun hboth => heq hboth.1⟩
    intro hone
    linarith

theorem exists_mapM_measures {κ : Type} {f : κ → Except PyException ℚ} {same : κ → Prop}
    {keys : List κ} (h : ∀ k ∈ keys, ∃ q, f k = .ok q ∧ Measures (same k) q) :
    ∃ sims, keys.mapM f = .ok sims ∧ sims.length = keys.length ∧
      (∀ q ∈ sims, 0 ≤ q ∧ q ≤ 1) ∧ ((∀ q ∈ sims, q = 1) ↔ ∀ k ∈ keys, same k) := by
  induction keys with
  | nil => exact ⟨[], rfl, rfl, by simp, by simp⟩
  | cons k keys ih =>
    rw [List.forall_mem_cons] at h
    obtain ⟨⟨q, hq, hmeasures⟩, h⟩ := h
    obtain ⟨sims, hsims, hlength, hbounds, hiff⟩ := ih h
    refine ⟨q :: sims, ?_, ?_, ?_, ?_⟩
    · rw [List.mapM_cons, hq, hsims]
      rfl
    · rw [List.length_cons, List.length_cons, hlength]
    · exact List.forall_mem_cons.mpr ⟨⟨hmeasures.nonneg, hmeasures.le_one⟩, hbounds⟩
    · rw [List.forall_mem_cons, List.forall_mem_cons, hmeasures.eq_one_iff, hiff]

theorem length_commonKeys_eq_iff (hl : l.keys.Nodup) (hm : m.keys.Nodup) :
    (commonKeys l m).length ≤ (allKeys l m).length ∧
      ((commonKeys l m).length = (allKeys l m).length ↔ ∀ k, k ∈ l.keys ↔ k ∈ m.keys) := by
  have hsub : (commonKeys l m).Subperm (allKeys l m) :=
    (nodup_commonKeys hl m).subperm fun k hk =>
      mem_allKeys.mpr (Or.inl (mem_commonKeys.mp hk).1)
  refine ⟨hsub.length_le, fun hlength k => ?_, fun hkeys => ?_⟩
  · have hmem := (hsub.perm_of_length_le hlength.ge).mem_iff (a := k)
    rw [mem_commonKeys, mem_allKeys] at hmem
    tauto
  · apply List.Perm.length_eq
    rw [List.perm_ext_iff_of_nodup (nodup_commonKeys hl m) (nodup_allKeys hl hm)]
    intro k
    rw [mem_commonKeys, mem_allKeys, hkeys, and_self, or_self]

theorem dictSimilarity_spec {compare : AgentValue → AgentValue → Except PyException ℚ}
    {same : String → Prop} (hl : l.keys.Nodup) (hm : m.keys.Nodup)
    (h : ∀ k ∈ l.keys, k ∈ m.keys → ∃ q, compare (l.get k) (m.get k) = .ok q ∧
      Measures (same k) q) :
    ∃ q, dictSimilarity compare l m = .ok q ∧
      Measures ((∀ k, k ∈ l.keys ↔ k ∈ m.keys) ∧ ∀ k ∈ commonKeys l m, same k) q := by
  obtain ⟨hle, hcommon⟩ := length_commonKeys_eq_iff hl hm
  by_cases hall : allKeys l m = []
  · refine ⟨1, dictSimilarity_nil hall, measures_one ?_⟩
    rw [hall, List.length_nil, Nat.le_zero, List.length_eq_zero_iff] at hle
    rw [← hcommon, hall, hle]
    exact ⟨rfl, fun k hk => nomatch hk⟩
  · obtain ⟨sims, hsims, hlength, hbounds, hones⟩ := exists_mapM_measures fun k hk =>
      h k (mem_commonKeys.mp hk).1 (mem_commonKeys.mp hk).2
    refine ⟨_, (dictSimilarity_eq_ok_iff hall).mpr ⟨sims, hsims, rfl⟩, ?_⟩
    apply (measures_blend hle (List.length_pos_iff.mpr hall) hlength hbounds).congr
    rw [hcommon, hones]

/-! ## Values that look alike -/

/-- A JSON value with at most `n` levels of lists and dictionaries, in which the items of the lists
have texts. -/
inductive AgentValue.JsonLike (i : ClassifierInterpreter) : ℕ → AgentValue → Prop
  | none {n : ℕ} : JsonLike i n .none
  | bool {n : ℕ} (x : Bool) : JsonLike i n (.bool x)
  | int {n : ℕ} (z : ℤ) : JsonLike i n (.int z)
  | float {n : ℕ} (q : ℚ) : JsonLike i n (.float q)
  | str {n : ℕ} (s : String) : JsonLike i n (.str s)
  | list {n : ℕ} {items : List AgentValue} (hitems : ∀ v ∈ items, v.JsonLike i n)
    (htexts : ∀ v ∈ items, ∃ text, v.json i = .ok text) : JsonLike i (n + 1) (.list items)
  | dict {n : ℕ} {entries : Entries} (hkeys : entries.keys.Nodup)
    (hvalues : ∀ e ∈ entries, AgentValue.JsonLike i n e.2) : JsonLike i (n + 1) (.dict entries)

/-- Values that are equal up to the order of the pairs of neighbours in texts and the order of
the items in lists. -/
inductive LooksAlike (i : ClassifierInterpreter) : AgentValue → AgentValue → Prop
  | equal {a b : AgentValue} (h : a.eq i b = true) : LooksAlike i a b
  | str {s t : String} (hne : bigrams s ≠ []) (h : (bigrams s).Perm (bigrams t)) :
    LooksAlike i (.str s) (.str t)
  | list {items items' : List AgentValue} {texts texts' : List String}
    (htexts : items.mapM (fun v => v.json i) = .ok texts)
    (htexts' : items'.mapM (fun v => v.json i) = .ok texts') (h : texts.Perm texts') :
    LooksAlike i (.list items) (.list items')
  | dict {l m : Entries} (hkeys : ∀ k, k ∈ l.keys ↔ k ∈ m.keys)
    (hvalues : ∀ k ∈ l.keys, LooksAlike i (l.get k) (m.get k)) : LooksAlike i (.dict l) (.dict m)

theorem AgentValue.JsonLike.proper (h : v.JsonLike i n) : v.Proper False := by
  induction h with
  | none => exact .none
  | bool x => exact .bool x
  | int z => exact .int z
  | float q => exact .float q
  | str s => exact .str s
  | list hitems htexts ih => exact .list ih
  | dict hkeys hvalues ih => exact .dict hkeys ih

theorem AgentValue.JsonLike.get (h : ∀ e ∈ l, AgentValue.JsonLike i n e.2) (k : String) :
    (l.get k).JsonLike i n := by
  unfold Entries.get
  cases hlookup : l.lookup k with
  | none => exact .none
  | some v => exact h (k, v) (Dict.mem_of_lookup hlookup)

theorem looksAlike_str_iff {s t : String} :
    LooksAlike i (.str s) (.str t) ↔ s = t ∨ bigrams s ≠ [] ∧ (bigrams s).Perm (bigrams t) := by
  constructor
  · intro h
    cases h with
    | equal h => exact Or.inl (by simpa [AgentValue.eq] using h)
    | str hne h => exact Or.inr ⟨hne, h⟩
  · rintro (rfl | ⟨hne, h⟩)
    · exact .equal (by simp [AgentValue.eq])
    · exact .str hne h

theorem get_of_lookup {k : String} (h : l.lookup k = some v) : Entries.get l k = v := by
  unfold Entries.get
  rw [h]
  rfl

theorem looksAlike_dict_iff (hl : l.keys.Nodup) :
    LooksAlike i (.dict l) (.dict m) ↔
      (∀ k, k ∈ l.keys ↔ k ∈ m.keys) ∧ ∀ k ∈ l.keys, LooksAlike i (l.get k) (m.get k) := by
  refine ⟨fun h => ?_, fun h => .dict h.1 h.2⟩
  cases h with
  | dict hkeys hvalues => exact ⟨hkeys, hvalues⟩
  | equal h =>
    rw [eq_dict_iff] at h
    have hfound : ∀ k ∈ l.keys, k ∈ m.keys ∧ (l.get k).eq i (m.get k) = true := by
      intro k hk
      obtain ⟨v, hv⟩ := Dict.mem_keys.mp hk
      obtain ⟨w, hw, heq⟩ := h.2 (k, v) hv
      rw [get_of_lookup ((Dict.lookup_eq_some_iff hl).mpr hv), get_of_lookup hw]
      exact ⟨Dict.exists_lookup_iff.mp ⟨w, hw⟩, heq⟩
    refine ⟨fun k => ⟨fun hk => (hfound k hk).1, fun hk => ?_⟩, fun k hk => ?_⟩
    · exact mem_keys_of_length_eq hl h.1 (fun k hk => (hfound k hk).1) hk
    · exact .equal (hfound k hk).2

/-! ## Similarity -/

theorem computeSimilarity_normalize (a b : AgentValue) :
    computeSimilarity i depthLeft (normalize depthLeft a) (normalize depthLeft b)
      = computeSimilarity i depthLeft a b := by
  cases depthLeft with
  | zero => rfl
  | succ depthLeft =>
    rw [computeSimilarity, similarityOf, similarityOf, normalize_normalize, normalize_normalize]

theorem itemTexts_normalize {items : List AgentValue} {texts : List String} {d : ℕ}
    (hitems : ∀ v ∈ items, v.JsonLike i n) (h : items.mapM (fun v => v.json i) = .ok texts) :
    itemTexts i (d + 1) (items.map (normalize d)) = .ok texts := by
  unfold itemTexts
  rw [List.mapM_map]
  refine mapM_ok_of_imp (fun v hv text htext => ?_) h
  have hproper := (hitems v hv).proper
  exact json_normalize (hproper.normalize d) (d + 1) (json_normalize hproper d htext)

theorem exists_listSimilarity {items items' : List AgentValue} {texts texts' : List String}
    {depthLeft : ℕ} (h : itemTexts i depthLeft items = .ok texts)
    (h' : itemTexts i depthLeft items' = .ok texts') :
    ∃ q, listSimilarity i depthLeft items items' = .ok q := by
  by_cases hne : items = [] ∨ items' = []
  · unfold listSimilarity
    by_cases hboth : items = [] ∧ items' = []
    · exact ⟨1, if_pos hboth⟩
    · exact ⟨0, by rw [if_neg hboth, if_pos hne]⟩
  · rw [not_or] at hne
    exact ⟨_, (listSimilarity_eq_ok_iff hne.1 hne.2).mpr ⟨texts, texts', h, h', rfl⟩⟩

theorem measures_number {p q : ℚ} (ha : a.number = some p) (hb : b.number = some q)
    (hne : ¬ LooksAlike i a b) : Measures (LooksAlike i a b) (numberSimilarity p q) := by
  refine (measures_numberSimilarity p q).congr (iff_of_false (fun heq => hne (.equal ?_)) hne)
  cases a with
  | bool x => cases b <;> simp_all [AgentValue.eq, AgentValue.number]
  | int x => cases b <;> simp_all [AgentValue.eq, AgentValue.number]
  | float x => cases b <;> simp_all [AgentValue.eq, AgentValue.number]
  | _ => cases ha

/-- The similarity is 1 for values that look alike and below 1 for others. -/
theorem similarityOf_spec {dicts : Entries → Entries → Except PyException ℚ}
    (ha : a.JsonLike i n) (hb : b.JsonLike i n)
    (hdicts : ∀ n' l m, n = n' + 1 → a = .dict l → b = .dict m →
      ∃ q, dicts (normalEntries n' l) (normalEntries n' m) = .ok q ∧
        Measures (LooksAlike i a b) q) :
    ∃ q, similarityOf i n dicts a b = .ok q ∧ Measures (LooksAlike i a b) q := by
  unfold similarityOf
  dsimp only
  rw [eq_normalize ha.proper hb.proper]
  by_cases heq : a.eq i b = true
  · exact ⟨1, if_pos heq, measures_one (.equal heq)⟩
  rw [if_neg heq]
  have hleaf : ∀ v : AgentValue, (∀ items, v ≠ .list items) → (∀ entries, v ≠ .dict entries) →
      normalize n v = v := fun v h h' => normalize_of_leaf h h' n
  have hnone := hleaf .none nofun nofun
  have hbool := fun x => hleaf (.bool x) nofun nofun
  have hint := fun z => hleaf (.int z) nofun nofun
  have hfloat := fun q => hleaf (.float q) nofun nofun
  have hstr := fun s => hleaf (.str s) nofun nofun
  -- values of different types look alike only if they are equal
  cases ha with
  | none =>
    refine ⟨0, ?_, measures_zero fun h => ?_⟩
    · rw [hnone]
    · cases h
      contradiction
  | bool x =>
    refine ⟨0, ?_, measures_zero fun h => ?_⟩
    · rw [hbool]
    · cases h
      contradiction
  | int z =>
    have hnot : ¬ LooksAlike i (.int z) b := fun h => by
      cases h
      contradiction
    rw [hint]
    cases hb with
    | int z' => exact ⟨_, by rw [hint], measures_number rfl rfl hnot⟩
    | float q => exact ⟨_, by rw [hfloat], measures_number rfl rfl hnot⟩
    | _ => exact ⟨0, by simp only [hnone, hbool, hstr, normalize], measures_zero hnot⟩
  | float q =>
    have hnot : ¬ LooksAlike i (.float q) b := fun h => by
      cases h
      contradiction
    rw [hfloat]
    cases hb with
    | int z' => exact ⟨_, by rw [hint], measures_number rfl rfl hnot⟩
    | float q => exact ⟨_, by rw [hfloat], measures_number rfl rfl hnot⟩
    | _ => exact ⟨0, by simp only [hnone, hbool, hstr, normalize], measures_zero hnot⟩
  | str s =>
    rw [hstr]
    cases hb with
    | str t =>
      rw [hstr]
      exact ⟨_, rfl, (measures_stringSimilarity s t).congr looksAlike_str_iff.symm⟩
    | _ =>
      refine ⟨0, by simp only [hnone, hbool, hint, hfloat, normalize], measures_zero fun h => ?_⟩
      cases h
      contradiction
  | @list n items hitems htexts =>
    cases hb with
    | @list _ items' hitems' htexts' =>
      obtain ⟨texts, htexts⟩ := exists_mapM_iff.mpr htexts
      obtain ⟨texts', htexts'⟩ := exists_mapM_iff.mpr htexts'
      have hnormal := itemTexts_normalize (d := n) hitems htexts
      have hnormal' := itemTexts_normalize (d := n) hitems' htexts'
      obtain ⟨q, hq⟩ := exists_listSimilarity hnormal hnormal'
      refine ⟨q, hq, (measures_listSimilarity hnormal hnormal' hq).congr ⟨?_, fun h => ?_⟩⟩
      · exact LooksAlike.list htexts htexts'
      · cases h with
        | equal h => exact absurd h heq
        | list h h' hperm =>
          rw [htexts] at h
          rw [htexts'] at h'
          rwa [Except.ok.inj h, Except.ok.inj h']
    | _ =>
      refine ⟨0, rfl, measures_zero fun h => ?_⟩
      cases h
      contradiction
  | @dict n l hkeys hvalues =>
    cases hb with
    | @dict _ m hkeys' hvalues' => exact hdicts n l m rfl rfl rfl
    | _ =>
      refine ⟨0, rfl, measures_zero fun h => ?_⟩
      cases h
      contradiction

/-- The similarity of two values is between zero and one, and one if and only if they look
alike. -/
theorem computeSimilarity_spec (ha : a.JsonLike i n) (hb : b.JsonLike i n) :
    ∃ q, computeSimilarity i n a b = .ok q ∧ Measures (LooksAlike i a b) q := by
  induction n generalizing a b with
  | zero => exact similarityOf_spec ha hb fun n' l m h => (nomatch h)
  | succ n ih =>
    refine similarityOf_spec ha hb ?_
    rintro n' l m hn rfl rfl
    obtain rfl := Nat.succ.inj hn
    cases ha with
    | dict hl hvalues =>
      cases hb with
      | dict hm hvalues' =>
        have hvalue : ∀ k, ∃ q, computeSimilarity i n (Entries.get (normalEntries n l) k)
            (Entries.get (normalEntries n m) k) = .ok q ∧
              Measures (LooksAlike i (Entries.get l k) (Entries.get m k)) q := by
          intro k
          rw [get_normalEntries hl, get_normalEntries hm, computeSimilarity_normalize]
          exact ih (AgentValue.JsonLike.get hvalues k) (AgentValue.JsonLike.get hvalues' k)
        obtain ⟨q, hq, hmeasures⟩ := dictSimilarity_spec (nodup_keys_normalEntries hl n)
          (nodup_keys_normalEntries hm n) fun k _ _ => hvalue k
        refine ⟨q, hq, hmeasures.congr ?_⟩
        rw [looksAlike_dict_iff hl]
        simp only [mem_commonKeys, mem_keys_normalEntries]
        apply and_congr_right
        intro hkeys
        exact ⟨fun h k hk => h k ⟨hk, (hkeys k).mp hk⟩, fun h k hk => h k hk.1⟩

/-! ## The law -/

/-- A bounded symmetric similarity, which is one if and only if the normal forms are equal. -/
def SimilarityLaw (i : ClassifierInterpreter) (a b : AgentValue) : Prop :=
  ∃ q, computeSimilarity i maxRecursionDepth a b = .ok q ∧
    computeSimilarity i maxRecursionDepth b a = .ok q ∧
      Measures ((normalize maxRecursionDepth a).eq i (normalize maxRecursionDepth b) = true) q

/-- The law holds of two values if and only if they do not look alike, or are equal. -/
theorem similarityLaw_iff (ha : a.JsonLike i maxRecursionDepth)
    (hb : b.JsonLike i maxRecursionDepth) :
    SimilarityLaw i a b ↔ (LooksAlike i a b →
      (normalize maxRecursionDepth a).eq i (normalize maxRecursionDepth b) = true) := by
  obtain ⟨q, hq, hmeasures⟩ := computeSimilarity_spec ha hb
  constructor
  · rintro ⟨q', hq', -, hlaw⟩ halike
    rw [← hlaw.eq_one_iff, ← Except.ok.inj (hq.symm.trans hq')]
    exact hmeasures.eq_one_iff.mpr halike
  · intro h
    refine ⟨q, hq, ?_, hmeasures.congr ⟨h, fun heq => .equal ?_⟩⟩
    · exact computeSimilarity_symm (fun h => h.elim) ha.proper hb.proper hq
    · rwa [eq_normalize ha.proper hb.proper] at heq

def tagged (tags : List AgentValue) : AgentValue := .dict [("tags", .list tags)]

theorem similarityLaw_iff_tagged :
    SimilarityLaw asciiClassifier (tagged [.str "a"]) (tagged [.str "b"]) ↔
      (LooksAlike asciiClassifier (tagged [.str "a"]) (tagged [.str "b"]) →
        (normalize maxRecursionDepth (tagged [.str "a"])).eq asciiClassifier
          (normalize maxRecursionDepth (tagged [.str "b"])) = true) := by
  have hjson : ∀ s : String, (tagged [.str s]).JsonLike asciiClassifier maxRecursionDepth := by
    intro s
    refine .dict (List.nodup_singleton _) fun e he => ?_
    rw [List.mem_singleton.mp he]
    refine .list (fun v hv => ?_) (fun v hv => ?_)
    · rw [List.mem_singleton.mp hv]
      exact .str s
    · rw [List.mem_singleton.mp hv]
      exact ⟨_, rfl⟩
  exact similarityLaw_iff (hjson "a") (hjson "b")

/-- Two texts with the same pairs of neighbours. -/
theorem palindromes_not_similarityLaw :
    AgentValue.JsonLike asciiClassifier maxRecursionDepth (.str "aba") ∧
      AgentValue.JsonLike asciiClassifier maxRecursionDepth (.str "bab") ∧
        ¬ SimilarityLaw asciiClassifier (.str "aba") (.str "bab") := by
  have haba : AgentValue.JsonLike asciiClassifier maxRecursionDepth (.str "aba") := .str "aba"
  have hbab : AgentValue.JsonLike asciiClassifier maxRecursionDepth (.str "bab") := .str "bab"
  refine ⟨haba, hbab, fun h => ?_⟩
  obtain ⟨q, hq, hmeasures⟩ := computeSimilarity_spec haba hbab
  obtain ⟨q', hq', -, hlaw⟩ := h
  have halike : LooksAlike asciiClassifier (.str "aba") (.str "bab") :=
    .str (by decide) (by decide)
  have hequal := hlaw.eq_one_iff.mp (Except.ok.inj (hq'.symm.trans hq) ▸
    hmeasures.eq_one_iff.mpr halike)
  exact absurd hequal (by decide)

end OmnibaseCore.Geometric
