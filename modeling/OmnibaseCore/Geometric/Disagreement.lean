import OmnibaseCore.Geometric.SimilarityTheorems

/-!
# How far two outputs lie apart

`disagreement` weighs the differences of two values: a key that only one of two dictionaries has,
and the values at the keys that both have, down to texts, numbers and lists. Similarity is what it
leaves of one (`computeSimilarity_eq`).
-/

namespace OmnibaseCore.Geometric

variable {i : ClassifierInterpreter} {depthLeft : ℕ} {a b : AgentValue} {l m : Entries} {q : ℚ}

/-! ## Leaves -/

/-- The distance of two numbers, of the larger of them. -/
def numberDisagreement (p q : ℚ) : ℚ := min (|p - q| / max (max |p| |q|) 1) 1

/-- The texts by which the items of a list are told apart. -/
def countedTexts (i : ClassifierInterpreter) (depthLeft : ℕ) (items : List AgentValue) :
    Multiset String :=
  items.filterMap fun v => ((normalize depthLeft v).json i).toOption

/-- Texts lie apart by the neighbouring letters that they do not share, lists by the items that
they do not share. Values of different kinds share nothing. -/
def leafDisagreement (i : ClassifierInterpreter) (depthLeft : ℕ) :
    AgentValue → AgentValue → ℚ
  | .str s, .str t => 1 - Counter.dice (bigrams s : Multiset (Char × Char)) (bigrams t)
  | .list items, .list items' =>
    1 - Counter.jaccard (countedTexts i depthLeft items) (countedTexts i depthLeft items')
  | .int n, .int m => numberDisagreement n m
  | .int n, .float q => numberDisagreement n q
  | .float q, .int n => numberDisagreement q n
  | .float p, .float q => numberDisagreement p q
  | _, _ => 1

theorem stringSimilarity_eq_dice {s t : String} (hne : s ≠ t) :
    stringSimilarity s t = Counter.dice (bigrams s : Multiset (Char × Char)) (bigrams t) := by
  by_cases hshort : bigrams s = [] ∧ bigrams t = []
  · rw [stringSimilarity_of_short hne hshort.1 hshort.2, hshort.1]
    unfold Counter.dice
    simp
  · exact stringSimilarity_of_ne hne (not_and_or.mp hshort)

theorem countedTexts_eq {items : List AgentValue} {texts : List String}
    (h : itemTexts i depthLeft items = .ok texts) :
    countedTexts i depthLeft items = (texts : Multiset String) := by
  have hsome := congrArg (List.filterMap id) (mapM_eq_ok_iff_map.mp h)
  rw [List.filterMap_map, List.filterMap_map, Function.id_comp, Function.id_comp,
    List.filterMap_some] at hsome
  exact congrArg Multiset.ofList hsome

/-- An empty list shares nothing with another one. -/
theorem jaccard_zero_left (s : Multiset String) : Counter.jaccard 0 s = 0 := by
  unfold Counter.jaccard
  simp

theorem listSimilarity_eq {items items' : List AgentValue} (hne : items ≠ [] ∨ items' ≠ [])
    (h : listSimilarity i depthLeft items items' = .ok q) :
    q = Counter.jaccard (countedTexts i depthLeft items) (countedTexts i depthLeft items') := by
  have hnil : countedTexts i depthLeft [] = 0 := rfl
  by_cases hitems : items = []
  · subst hitems
    unfold listSimilarity at h
    rw [if_neg fun hboth => hne.elim (fun h => h rfl) fun h => h hboth.2, if_pos (Or.inl rfl)] at h
    rw [← Except.ok.inj h, hnil, jaccard_zero_left]
  · by_cases hitems' : items' = []
    · subst hitems'
      unfold listSimilarity at h
      rw [if_neg fun hboth => hitems hboth.1, if_pos (Or.inr rfl)] at h
      rw [← Except.ok.inj h, hnil, Counter.jaccard_symm, jaccard_zero_left]
    · rcases (listSimilarity_eq_ok_iff hitems hitems').mp h with ⟨_, _, htexts, htexts', rfl⟩
      rw [countedTexts_eq htexts, countedTexts_eq htexts']

/-! ## Dictionaries -/

/-- Of two dictionaries with the same keys the mean of what their values disagree by; of others
half of it, and half of the share of the keys that only one of them has. -/
def entriesDisagreement (value : AgentValue → AgentValue → ℚ) (l m : Entries) : ℚ :=
  let common := commonKeys l m
  let all := allKeys l m
  let apart := mean (common.map fun key => value (l.get key) (m.get key))
  if common = [] then 1
  else if common.length = all.length then apart
  else (all.length - common.length) / (2 * all.length) + apart / 2

theorem mean_one_sub {α : Type} {items : List α} (hne : items ≠ []) (f : α → ℚ) :
    mean (items.map fun x => 1 - f x) = 1 - mean (items.map f) := by
  have hlength : (items.length : ℚ) ≠ 0 := by
    simpa using hne
  have hsum : (items.map fun x => 1 - f x).sum = items.length - (items.map f).sum := by
    clear hne hlength
    induction items with
    | nil => simp
    | cons x items ih =>
      rw [List.map_cons, List.map_cons, List.sum_cons, List.sum_cons, ih, List.length_cons]
      push_cast
      ring
  unfold mean
  rw [hsum, List.length_map, List.length_map, sub_div, div_self hlength]

theorem mapM_eq_map_of_forall {κ : Type} {keys : List κ} {f : κ → Except PyException ℚ}
    {g : κ → ℚ} {qs : List ℚ} (hf : ∀ k ∈ keys, ∀ r, f k = .ok r → r = g k)
    (h : keys.mapM f = .ok qs) : qs = keys.map g := by
  have hmap : (keys.mapM fun k => (.ok (g k) : Except PyException ℚ)) = .ok qs :=
    mapM_ok_of_imp (fun k hk r hr => by rw [hf k hk r hr]) h
  rw [mapM_eq_ok_map fun _ _ => rfl] at hmap
  exact (Except.ok.inj hmap).symm

theorem dictSimilarity_eq {compare : AgentValue → AgentValue → Except PyException ℚ}
    {value : AgentValue → AgentValue → ℚ} (hall : allKeys l m ≠ [])
    (hcompare : ∀ x y r, compare x y = .ok r → r = 1 - value x y)
    (h : dictSimilarity compare l m = .ok q) : q = 1 - entriesDisagreement value l m := by
  rcases (dictSimilarity_eq_ok_iff hall).mp h with ⟨sims, hsims, rfl⟩
  have hmap := mapM_eq_map_of_forall (fun key _ r => hcompare (l.get key) (m.get key) r) hsims
  have hpos : ((allKeys l m).length : ℚ) ≠ 0 := by
    simpa using hall
  unfold entriesDisagreement blend
  dsimp only
  by_cases hcommon : commonKeys l m = []
  · rw [if_pos hcommon, hmap, hcommon, List.map_nil, mean_nil]
    norm_num
  · rw [if_neg hcommon, hmap, mean_one_sub hcommon]
    by_cases hsame : (commonKeys l m).length = (allKeys l m).length
    · rw [if_pos hsame, if_pos (by rw [hsame, div_self hpos])]
    · rw [if_neg hsame, if_neg fun hone => hsame (Nat.cast_inj.mp ((div_eq_one_iff_eq hpos).mp hone))]
      field_simp
      ring

/-! ## Values -/

/-- How far two outputs lie apart, as far as `depthLeft` levels tell them apart. -/
def disagreement (i : ClassifierInterpreter) : ℕ → AgentValue → AgentValue → ℚ
  | 0, a, b => if a.eq i b then 0 else leafDisagreement i 0 a b
  | depthLeft + 1, a, b =>
    if (normalize (depthLeft + 1) a).eq i (normalize (depthLeft + 1) b) then 0
    else
      match normalize (depthLeft + 1) a, normalize (depthLeft + 1) b with
      | .dict l, .dict m => entriesDisagreement (disagreement i depthLeft) l m
      | a, b => leafDisagreement i (depthLeft + 1) a b

theorem similarityOf_of_eq {dicts : Entries → Entries → Except PyException ℚ}
    (heq : (normalize depthLeft a).eq i (normalize depthLeft b) = true)
    (h : similarityOf i depthLeft dicts a b = .ok q) : q = 1 := by
  unfold similarityOf at h
  rw [if_pos heq] at h
  exact (Except.ok.inj h).symm

theorem similarityOf_dict {dicts : Entries → Entries → Except PyException ℚ}
    (ha : normalize depthLeft a = .dict l) (hb : normalize depthLeft b = .dict m)
    (hne : (AgentValue.dict l).eq i (.dict m) = false)
    (h : similarityOf i depthLeft dicts a b = .ok q) : dicts l m = .ok q := by
  unfold similarityOf at h
  dsimp only at h
  rw [ha, hb, if_neg (by rw [hne]; exact Bool.false_ne_true)] at h
  exact h

theorem allKeys_ne_nil (hne : (AgentValue.dict l).eq i (.dict m) = false) :
    allKeys l m ≠ [] := by
  intro hnil
  obtain ⟨hl, hm⟩ := List.append_eq_nil_iff.mp hnil
  obtain rfl := List.map_eq_nil_iff.mp hl
  have hkeys : m.keys = [] := by
    simpa [Entries.keys] using hm
  obtain rfl := List.map_eq_nil_iff.mp hkeys
  exact nomatch hne

/-- Values that are no two dictionaries are as similar as their leaves agree. -/
theorem similarityOf_eq {dicts : Entries → Entries → Except PyException ℚ} {a' b' : AgentValue}
    (ha : normalize depthLeft a = a') (hb : normalize depthLeft b = b')
    (hne : a'.eq i b' = false) (hdicts : ∀ l m, a' = .dict l → b' ≠ .dict m)
    (h : similarityOf i depthLeft dicts a b = .ok q) :
    q = 1 - leafDisagreement i depthLeft a' b' := by
  unfold similarityOf at h
  dsimp only at h
  rw [ha, hb, if_neg (by rw [hne]; exact Bool.false_ne_true)] at h
  have hzero : Except.ok (0 : ℚ) = (Except.ok q : Except PyException ℚ) → q = 1 - 1 :=
    fun h => (Except.ok.inj h).symm.trans (sub_self 1).symm
  have hsub : ∀ {r : ℚ}, Except.ok r = (Except.ok q : Except PyException ℚ) →
      q = 1 - (1 - r) := fun h => (Except.ok.inj h).symm.trans (sub_sub_cancel 1 _).symm
  -- values of two kinds disagree entirely
  cases a' with
  | dict l =>
    cases b' with
    | dict m => exact absurd rfl (hdicts l m rfl)
    | _ => exact hzero h
  | list items =>
    cases b' with
    | list items' =>
      have hitems : items ≠ [] ∨ items' ≠ [] := by
        rw [← not_and_or]
        rintro ⟨rfl, rfl⟩
        exact nomatch hne
      rw [listSimilarity_eq hitems h]
      exact (sub_sub_cancel 1 _).symm
    | _ => exact hzero h
  | str s =>
    cases b' with
    | str t =>
      have hst : s ≠ t := by
        rintro rfl
        unfold AgentValue.eq at hne
        simp at hne
      replace h : Except.ok (stringSimilarity s t) = Except.ok q := h
      rw [stringSimilarity_eq_dice hst] at h
      exact hsub h
    | _ => exact hzero h
  | int n =>
    cases b' with
    | int _ => exact (Except.ok.inj h).symm
    | float _ => exact (Except.ok.inj h).symm
    | _ => exact hzero h
  | float p =>
    cases b' with
    | int _ => exact (Except.ok.inj h).symm
    | float _ => exact (Except.ok.inj h).symm
    | _ => exact hzero h
  | none => cases b' <;> exact hzero h
  | bool x => cases b' <;> exact hzero h
  | obj cls address => cases b' <;> exact hzero h

/-- Similarity is what disagreement leaves of one. -/
theorem computeSimilarity_eq (h : computeSimilarity i depthLeft a b = .ok q) :
    q = 1 - disagreement i depthLeft a b := by
  induction depthLeft generalizing a b q with
  | zero =>
    unfold computeSimilarity at h
    unfold disagreement
    by_cases heq : a.eq i b = true
    · rw [if_pos heq, similarityOf_of_eq heq h, sub_zero]
    · have hne := Bool.eq_false_of_not_eq_true heq
      rw [if_neg heq]
      by_cases hdict : ∃ l m, a = .dict l ∧ b = .dict m
      · -- dictionaries below the last level are the same or share nothing
        rcases hdict with ⟨l, m, rfl, rfl⟩
        have hzero := similarityOf_dict rfl rfl hne h
        rw [if_neg heq] at hzero
        exact (Except.ok.inj hzero).symm.trans (sub_self 1).symm
      · exact similarityOf_eq rfl rfl hne (fun l m hl hm => hdict ⟨l, m, hl, hm⟩) h
  | succ depthLeft ih =>
    unfold computeSimilarity at h
    unfold disagreement
    by_cases heq : (normalize (depthLeft + 1) a).eq i (normalize (depthLeft + 1) b) = true
    · rw [if_pos heq, similarityOf_of_eq heq h, sub_zero]
    · have hne := Bool.eq_false_of_not_eq_true heq
      rw [if_neg heq]
      split
      · next l m ha hb =>
        rw [ha, hb] at hne
        exact dictSimilarity_eq (allKeys_ne_nil hne) (fun _ _ _ => ih)
          (similarityOf_dict ha hb hne h)
      · next hdict => exact similarityOf_eq rfl rfl hne hdict h

end OmnibaseCore.Geometric
