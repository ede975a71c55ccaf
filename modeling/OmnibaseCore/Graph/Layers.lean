import OmnibaseCore.Graph.Kahn

/-!
# Layers of an acyclic graph

The layer of a vertex is the length of the longest path that ends in it. Two ways of listing
the vertices are compared:

* *layer by layer*, the vertices of a layer in the order of a key (`LayerLt`);
* *greedily*, always the vertex with the least key among those whose predecessors have all
  been listed (`Greedy`), which is what Kahn's algorithm does with a priority queue.

`Greedy.pairwise_layerLt_iff` says when the two agree: no vertex may be available, with a
smaller key, while a vertex of the layer below it is still waiting.
-/

namespace FiniteGraph

universe u

variable {α : Type u} {κ : Type*} [LinearOrder κ]

def Greedy (nodes : List α) (succ : α → List α) (key : α → κ) (result : List α) : Prop :=
  ∀ l₁ a l₂, result = l₁ ++ a :: l₂ →
    Available nodes succ l₁ a ∧ ∀ b, Available nodes succ l₁ b → key a ≤ key b

theorem KahnResult.greedy [DecidableEq α] {nodes : List α} {succ : α → List α} {key : α → κ}
    {result : List α} (h : KahnResult (Worklist.heap key) nodes succ result) :
    Greedy nodes succ key result := by
  intro l₁ a l₂ heq
  obtain ⟨w, w', hpop, hw⟩ := h.popped l₁ a l₂ heq
  exact ⟨h.available heq, fun b hb => Worklist.heap_pop_le hpop b ((hw b).mpr hb)⟩

/-- `layer` satisfies the recursion of the longest path that ends in a vertex. -/
def IsLayer (pred : α → List α) (layer : α → ℕ) : Prop :=
  ∀ b, layer b = ((pred b).map fun a => layer a + 1).foldr max 0

def LayerLt (layer : α → ℕ) (key : α → κ) (a b : α) : Prop :=
  layer a < layer b ∨ (layer a = layer b ∧ key a < key b)

instance (layer : α → ℕ) (key : α → κ) (a b : α) : Decidable (LayerLt layer key a b) :=
  inferInstanceAs (Decidable (_ ∨ _))

section
variable {pred : α → List α} {layer : α → ℕ}

theorem IsLayer.lt (h : IsLayer pred layer) {a b : α} (hab : a ∈ pred b) :
    layer a < layer b := by
  have hle : layer a + 1 ≤ ((pred b).map fun a => layer a + 1).foldr max 0 :=
    le_foldr_max (List.mem_map.mpr ⟨a, hab, rfl⟩)
  rw [← h b] at hle
  omega

theorem IsLayer.exists_pred (h : IsLayer pred layer) {b : α} {n : ℕ} (hb : layer b = n + 1) :
    ∃ a ∈ pred b, layer a = n := by
  have hmem := foldr_max_mem (l := (pred b).map fun a => layer a + 1) (by rw [← h b]; omega)
  rw [← h b, hb] at hmem
  obtain ⟨a, ha, heq⟩ := List.mem_map.mp hmem
  exact ⟨a, ha, by omega⟩

theorem IsLayer.le_succ (h : IsLayer pred layer) {b : α} {n : ℕ}
    (hpred : ∀ a ∈ pred b, layer a ≤ n) : layer b ≤ n + 1 := by
  rw [h b, foldr_max_le]
  intro x hx
  obtain ⟨a, ha, rfl⟩ := List.mem_map.mp hx
  exact Nat.succ_le_succ (hpred a ha)

end

/-! ## The two ways of listing the vertices -/

section
variable {layer : α → ℕ} {key : α → κ}

theorem layerLt_iff {a b : α} :
    LayerLt layer key a b ↔ toLex (layer a, key a) < toLex (layer b, key b) := by
  rw [Prod.Lex.toLex_lt_toLex]
  exact Iff.rfl

theorem LayerLt.asymm {a b : α} (hab : LayerLt layer key a b) : ¬ LayerLt layer key b a := by
  rw [layerLt_iff] at *
  exact lt_asymm hab

theorem pairwise_of_forall_split {R : α → α → Prop} {l : List α}
    (h : ∀ l₁ a l₂, l = l₁ ++ a :: l₂ → ∀ b ∈ l₂, R a b) : l.Pairwise R := by
  induction l with
  | nil => exact List.Pairwise.nil
  | cons a l ih =>
    refine List.Pairwise.cons (h [] a l rfl) (ih fun l₁ b l₂ heq => ?_)
    exact h (a :: l₁) b l₂ (by rw [heq, List.cons_append])

end

section
variable {nodes : List α} {succ pred : α → List α} {layer : α → ℕ} {key : α → κ}
  {result : List α}

/-- A greedy list goes layer by layer if no available vertex overtakes one of the layer
below it. The induction is on the part of the list already known to precede the rest. -/
theorem Greedy.precedes (h : Greedy nodes succ key result) (hin : SourcesIn nodes succ)
    (hpred : ∀ a b, a ∈ pred b ↔ Edge succ a b) (hlayer : IsLayer pred layer)
    (hnodup : result.Nodup) (hnodes : ∀ a, a ∈ result ↔ a ∈ nodes)
    (hkey : ∀ a ∈ nodes, ∀ b ∈ nodes, key a = key b → a = b)
    (hovertake : ∀ x ∈ nodes, ∀ y ∈ nodes, layer y = layer x + 1 → key y < key x →
      ∃ d ∈ pred y, layer d = layer x ∧ key x ≤ key d) :
    ∀ l₁ l₂, result = l₁ ++ l₂ → ∀ a ∈ l₁, ∀ b ∈ l₂, LayerLt layer key a b := by
  intro l₁
  induction l₁ using List.reverseRecOn with
  | nil => intro _ _ a ha; cases ha
  | append_singleton l₁ a ih =>
    intro l₂ heq
    have heq' : result = l₁ ++ a :: l₂ := by rw [heq, List.append_assoc, List.singleton_append]
    have hbefore := ih (a :: l₂) heq'
    have hmem : ∀ b, b ∈ nodes ↔ b ∈ l₁ ∨ b ∈ a :: l₂ := fun b => by
      rw [← hnodes, heq', List.mem_append]
    have hsplit := List.nodup_append.mp (heq' ▸ hnodup)
    -- `m` comes first, layer by layer, among the vertices not listed yet
    obtain ⟨m, hm⟩ : ∃ m, (a :: l₂).argmin (fun b => toLex (layer b, key b)) = some m :=
      Option.ne_none_iff_exists'.mp fun h => by simp [List.argmin_eq_none] at h
    have hmMem : m ∈ a :: l₂ := List.argmin_mem hm
    have hmNode : m ∈ nodes := (hmem m).mpr (Or.inr hmMem)
    have hleast : ∀ b ∈ a :: l₂, b ≠ m → LayerLt layer key m b := by
      intro b hb hbm
      have hle : toLex (layer m, key m) ≤ toLex (layer b, key b) :=
        List.le_of_mem_argmin (f := fun b => toLex (layer b, key b)) hb hm
      rw [layerLt_iff]
      refine lt_of_le_of_ne hle fun heq => hbm ?_
      have hkeys : (layer m, key m) = (layer b, key b) := heq
      exact (hkey m hmNode b ((hmem b).mpr (Or.inr hb)) (Prod.mk.inj hkeys).2).symm
    have hmAvail : Available nodes succ l₁ m := by
      refine ⟨hmNode, fun hml => hsplit.2.2 m hml m hmMem rfl, fun d hdm => ?_⟩
      have hlt : layer d < layer m := hlayer.lt ((hpred d m).mpr hdm)
      refine ((hmem d).mp (hin d m hdm)).resolve_right fun hd => ?_
      have hne : d ≠ m := fun h => by rw [h] at hlt; exact lt_irrefl _ hlt
      exact (hleast d hd hne).asymm (Or.inl hlt)
    obtain ⟨haAvail, hleastKey⟩ := h l₁ a l₂ heq'
    have ham : a = m := by
      by_contra hne
      have hkeyLt : key a < key m :=
        lt_of_le_of_ne (hleastKey m hmAvail) fun heq => hne (hkey a haAvail.1 m hmNode heq)
      have hlt : layer m < layer a := by
        rcases hleast a List.mem_cons_self hne with hlt | ⟨_, hk⟩
        · exact hlt
        · exact absurd hk (lt_asymm hkeyLt)
      have hpredBefore : ∀ d ∈ pred a, LayerLt layer key d m := fun d hd =>
        hbefore d (haAvail.2.2 d ((hpred d a).mp hd)) m hmMem
      have hle : layer a ≤ layer m + 1 := hlayer.le_succ fun d hd => by
        rcases hpredBefore d hd with hd | ⟨hd, _⟩
        · exact hd.le
        · exact hd.le
      -- so `a` overtakes `m`, from the layer just above it
      obtain ⟨d, hd, hdm, hdkey⟩ := hovertake m hmNode a haAvail.1 (by omega) hkeyLt
      rcases hpredBefore d hd with hlt' | ⟨_, hk⟩
      · omega
      · exact absurd hk (not_lt.mpr hdkey)
    subst ham
    intro x hx b hb
    rcases List.mem_append.mp hx with hx | hx
    · exact hbefore x hx b (List.mem_cons_of_mem a hb)
    · obtain rfl : x = a := by simpa using hx
      refine hleast b (List.mem_cons_of_mem x hb) fun hbx => ?_
      exact (List.nodup_cons.mp hsplit.2.1).1 (hbx ▸ hb)

/-- When a greedy list of all vertices goes layer by layer. -/
theorem Greedy.pairwise_layerLt_iff (h : Greedy nodes succ key result)
    (hin : SourcesIn nodes succ) (hpred : ∀ a b, a ∈ pred b ↔ Edge succ a b)
    (hlayer : IsLayer pred layer) (hnodup : result.Nodup) (hnodes : ∀ a, a ∈ result ↔ a ∈ nodes)
    (hkey : ∀ a ∈ nodes, ∀ b ∈ nodes, key a = key b → a = b) :
    result.Pairwise (LayerLt layer key) ↔
      ∀ x ∈ nodes, ∀ y ∈ nodes, layer y = layer x + 1 → key y < key x →
        ∃ d ∈ pred y, layer d = layer x ∧ key x ≤ key d := by
  constructor
  · intro hsorted x hx y hy hyx hkeyLt
    by_contra! hnone
    obtain ⟨l₁, l₂, rfl⟩ := List.append_of_mem ((hnodes x).mpr hx)
    have hsplit := List.pairwise_append.mp hsorted
    -- what precedes `x` layer by layer has been listed before `x`
    have hfirst : ∀ d, d ∈ nodes → LayerLt layer key d x → d ∈ l₁ := by
      intro d hd hdx
      rcases List.mem_append.mp ((hnodes d).mpr hd) with hd | hd
      · exact hd
      · rcases List.mem_cons.mp hd with rfl | hd
        · exact absurd hdx hdx.asymm
        · exact absurd hdx (List.rel_of_pairwise_cons hsplit.2.1 hd).asymm
    have hyAvail : Available nodes succ l₁ y := by
      refine ⟨hy, fun hyl => ?_, fun d hdy => ?_⟩
      · exact (hsplit.2.2 y hyl x List.mem_cons_self).asymm (Or.inl (by omega))
      · have hdpred : d ∈ pred y := (hpred d y).mpr hdy
        have hdlt : layer d < layer y := hlayer.lt hdpred
        refine hfirst d (hin d y hdy) ?_
        by_cases hdx : layer d = layer x
        · exact Or.inr ⟨hdx, hnone d hdpred hdx⟩
        · exact Or.inl (by omega)
    exact absurd hkeyLt (not_lt.mpr ((h l₁ x l₂ rfl).2 y hyAvail))
  · intro hovertake
    have hprecedes := h.precedes hin hpred hlayer hnodup hnodes hkey hovertake
    refine pairwise_of_forall_split fun l₁ a l₂ heq b hb => ?_
    exact hprecedes (l₁ ++ [a]) l₂ (by simp [heq]) a (by simp) b hb

end

end FiniteGraph
