import Mathlib.Tactic

/-!
# Finite directed graphs given by adjacency functions

A graph is a function `succ : α → List α`, with repeated and dangling entries allowed.
Everything below is about the edge relation it induces.
-/

namespace FiniteGraph

open Relation

variable {α : Type*}

/-- There is an edge from `a` to `b`. -/
def Edge (succ : α → List α) (a b : α) : Prop := b ∈ succ a

instance [DecidableEq α] (succ : α → List α) (a b : α) : Decidable (Edge succ a b) :=
  inferInstanceAs (Decidable (b ∈ succ a))

/-- No vertex reaches itself along one or more edges. -/
def Acyclic (succ : α → List α) : Prop := ∀ a, ¬ TransGen (Edge succ) a a

/-- Every vertex that has a successor is listed in `nodes`. -/
def SourcesIn (nodes : List α) (succ : α → List α) : Prop := ∀ a b, b ∈ succ a → a ∈ nodes

/-! ## Well-founded induction -/

variable {succ : α → List α} {a : α}

theorem not_transGen_self_of_acc (h : Acc (fun b a => Edge succ a b) a) :
    ¬ TransGen (Edge succ) a a := by
  induction h with
  | intro a _ ih =>
    intro hcycle
    -- the first edge of the cycle leads to a vertex that is on the same cycle
    obtain ⟨b, hab, hba⟩ := TransGen.head'_iff.mp hcycle
    exact ih b hab (TransGen.tail' hba hab)

theorem acyclic_of_forall_acc (h : ∀ a, Acc (fun b a => Edge succ a b) a) : Acyclic succ :=
  fun a => not_transGen_self_of_acc (h a)

variable {nodes : List α}

/-- The successor relation of an acyclic graph with finitely many sources is well-founded. -/
theorem Acyclic.wellFounded (hacyc : Acyclic succ) (hnodes : SourcesIn nodes succ) :
    WellFounded (fun b a => Edge succ a b) := by
  let r : {a // a ∈ nodes} → {a // a ∈ nodes} → Prop :=
    fun b a => TransGen (Edge succ) a.1 b.1
  have hfin : Finite {a // a ∈ nodes} := List.finite_toSet nodes
  have htrans : IsTrans {a // a ∈ nodes} r := ⟨fun a b c hab hbc => TransGen.trans hbc hab⟩
  have hirrefl : Std.Irrefl r := ⟨fun a h => hacyc a.1 h⟩
  have hwf : WellFounded r := Finite.wellFounded_of_trans_of_irrefl r
  -- a vertex outside `nodes` has no successor at all
  have hout : ∀ a, a ∉ nodes → Acc (fun b a => Edge succ a b) a := by
    intro a ha
    exact Acc.intro a fun b hb => absurd (hnodes a b hb) ha
  have hin : ∀ a : {a // a ∈ nodes}, Acc (fun b a => Edge succ a b) a.1 := by
    intro a
    induction a using hwf.induction with
    | _ a ih =>
      refine Acc.intro a.1 fun b hb => ?_
      by_cases hbn : b ∈ nodes
      · exact ih ⟨b, hbn⟩ (TransGen.single hb)
      · exact hout b hbn
  refine ⟨fun a => ?_⟩
  by_cases ha : a ∈ nodes
  · exact hin ⟨a, ha⟩
  · exact hout a ha

theorem Acyclic.exists_sink (hacyc : Acyclic succ) (hnodes : SourcesIn nodes succ) {P : α → Prop}
    (ha : P a) : ∃ b, P b ∧ ∀ c, Edge succ b c → ¬ P c := by
  obtain ⟨b, hb, hmin⟩ := (hacyc.wellFounded hnodes).has_min {x | P x} ⟨a, ha⟩
  exact ⟨b, hb, fun c hbc hc => hmin c hc hbc⟩

theorem Acyclic.of_reverse {succ pred : α → List α}
    (h : ∀ a b, Edge pred a b → Edge succ b a) (hacyc : Acyclic succ) : Acyclic pred := by
  intro a hcycle
  have hswap : TransGen (Function.swap (Edge succ)) a a := TransGen.mono h a a hcycle
  exact hacyc a (transGen_swap.mp hswap)

/-! ## Chains -/

variable {l : List α}

theorem transGen_of_isChain_cons (h : (a :: l).IsChain (Edge succ)) :
    ∀ b ∈ l, TransGen (Edge succ) a b := by
  induction l generalizing a with
  | nil => intro b hb; cases hb
  | cons c l ih =>
    intro b hb
    have hac : Edge succ a c := h.rel
    rcases List.mem_cons.mp hb with rfl | hb
    · exact TransGen.single hac
    · exact TransGen.head hac (ih h.tail b hb)

/-- A chain of an acyclic graph repeats no vertex. -/
theorem Acyclic.nodup_of_isChain (hacyc : Acyclic succ) (h : l.IsChain (Edge succ)) : l.Nodup := by
  induction l with
  | nil => exact List.nodup_nil
  | cons a l ih =>
    rw [List.nodup_cons]
    refine ⟨fun ha => hacyc a (transGen_of_isChain_cons h a ha), ih h.tail⟩

theorem dropLast_subset_of_isChain (hnodes : SourcesIn nodes succ) (h : l.IsChain (Edge succ)) :
    l.dropLast ⊆ nodes := by
  induction l with
  | nil => simp
  | cons a l ih =>
    cases l with
    | nil => simp
    | cons b l =>
      rw [List.dropLast_cons_cons]
      exact List.cons_subset.mpr ⟨hnodes a b h.rel, ih h.tail⟩

theorem not_acyclic_of_isChain {a b : α} (hchain : (a :: l).IsChain (Edge succ))
    (hlast : (a :: l).getLast? = some b) (hback : Edge succ b a) : ¬ Acyclic succ := by
  intro hacyc
  have hb : b ∈ a :: l := List.mem_of_getLast? hlast
  rcases List.mem_cons.mp hb with rfl | hb
  · exact hacyc b (TransGen.single hback)
  · exact hacyc a ((transGen_of_isChain_cons hchain b hb).tail hback)

/-! ## Rank -/

/-- The number of edges of the longest chain from `a`, looking at most `fuel` edges deep. -/
def rank (succ : α → List α) : ℕ → α → ℕ
  | 0, _ => 0
  | fuel + 1, a => ((succ a).map fun b => rank succ fuel b + 1).foldr max 0

theorem foldr_max_le {l : List ℕ} {n : ℕ} : l.foldr max 0 ≤ n ↔ ∀ x ∈ l, x ≤ n := by
  induction l with
  | nil => simp
  | cons x l ih => simp [ih]

theorem le_foldr_max {l : List ℕ} {x : ℕ} (h : x ∈ l) : x ≤ l.foldr max 0 :=
  foldr_max_le.mp le_rfl x h

theorem foldr_max_mem {l : List ℕ} (h : 0 < l.foldr max 0) : l.foldr max 0 ∈ l := by
  induction l with
  | nil => simp at h
  | cons x l ih =>
    rw [List.foldr_cons] at h ⊢
    rcases Nat.le_total x (l.foldr max 0) with hx | hx
    · rw [max_eq_right hx] at h ⊢
      exact List.mem_cons_of_mem x (ih h)
    · rw [max_eq_left hx]
      exact List.mem_cons_self

theorem rank_le_fuel (succ : α → List α) (fuel : ℕ) (a : α) : rank succ fuel a ≤ fuel := by
  induction fuel generalizing a with
  | zero => exact Nat.le_refl 0
  | succ fuel ih =>
    rw [rank, foldr_max_le]
    intro x hx
    obtain ⟨b, _, rfl⟩ := List.mem_map.mp hx
    exact Nat.succ_le_succ (ih b)

variable {fuel : ℕ}

theorem rank_succ_eq (h : rank succ fuel a < fuel) : rank succ (fuel + 1) a = rank succ fuel a := by
  induction fuel generalizing a with
  | zero => omega
  | succ fuel ih =>
    rw [rank, rank]
    congr 1
    refine List.map_congr_left fun b hb => ?_
    have hb' : rank succ fuel b + 1 ≤ rank succ (fuel + 1) a :=
      le_foldr_max (List.mem_map.mpr ⟨b, hb, rfl⟩)
    rw [ih (by omega)]

theorem exists_isChain_of_rank_eq (h : rank succ fuel a = fuel) :
    ∃ l, (a :: l).IsChain (Edge succ) ∧ l.length = fuel := by
  induction fuel generalizing a with
  | zero => exact ⟨[], List.isChain_singleton a, rfl⟩
  | succ fuel ih =>
    rw [rank] at h
    have hmem := foldr_max_mem (l := (succ a).map fun b => rank succ fuel b + 1) (by omega)
    rw [h] at hmem
    obtain ⟨b, hb, hbeq⟩ := List.mem_map.mp hmem
    obtain ⟨l, hchain, hlen⟩ := ih (a := b) (by omega)
    refine ⟨b :: l, List.isChain_cons_cons.mpr ⟨hb, hchain⟩, ?_⟩
    rw [List.length_cons, hlen]

theorem Acyclic.rank_lt (hacyc : Acyclic succ) (hnodes : SourcesIn nodes succ)
    (hfuel : nodes.length < fuel) (a : α) : rank succ fuel a < fuel := by
  refine lt_of_le_of_ne (rank_le_fuel succ fuel a) fun heq => ?_
  obtain ⟨l, hchain, hlen⟩ := exists_isChain_of_rank_eq heq
  have hnodup : (a :: l).dropLast.Nodup :=
    (hacyc.nodup_of_isChain hchain).sublist (List.dropLast_sublist _)
  have hle := (hnodup.subperm (dropLast_subset_of_isChain hnodes hchain)).length_le
  rw [List.length_dropLast, List.length_cons] at hle
  omega

/-- The recursion equation of the rank, once the fuel exceeds the number of sources. -/
theorem Acyclic.rank_eq (hacyc : Acyclic succ) (hnodes : SourcesIn nodes succ)
    (hfuel : nodes.length < fuel) (a : α) :
    rank succ fuel a = ((succ a).map fun b => rank succ fuel b + 1).foldr max 0 := by
  rw [← rank_succ_eq (hacyc.rank_lt hnodes hfuel a), rank]

end FiniteGraph
