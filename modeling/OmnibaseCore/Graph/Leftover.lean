import OmnibaseCore.Graph.Layers
import OmnibaseCore.Graph.Trail

/-!
# What Kahn's algorithm leaves out, and what it lists

* `Greedy.unique`: there is one greedy list of the vertices, however they are given.
-/

namespace FiniteGraph

open Relation

universe u

variable {α : Type u}

theorem leadsToCycle_of_forall_exists {succ : α → List α} {nodes : List α} {P : α → Prop}
    (hnodes : SourcesIn nodes succ) (hP : ∀ a, P a → ∃ b, Edge succ a b ∧ P b) {a : α} (ha : P a) :
    LeadsToCycle succ a := by
  classical
  by_contra hleads
  -- below a vertex that leads to no cycle there is no cycle
  let below : α → List α := fun b => if LeadsToCycle succ b then [] else succ b
  have hbelow : ∀ b c, Edge below b c ↔ Edge succ b c ∧ ¬ LeadsToCycle succ b := by
    intro b c
    unfold Edge below
    split_ifs with h
    · simp [h]
    · simp [h]
  have hacyclic : Acyclic below := by
    intro b hcycle
    obtain ⟨c, hbc, -⟩ := TransGen.head'_iff.mp hcycle
    refine ((hbelow b c).mp hbc).2 ⟨b, ReflTransGen.refl, ?_⟩
    exact TransGen.mono (fun b c h => ((hbelow b c).mp h).1) b b hcycle
  obtain ⟨b, ⟨hb, hbleads⟩, hsink⟩ := hacyclic.exists_sink
    (fun b c h => hnodes b c ((hbelow b c).mp h).1)
    (P := fun b => P b ∧ ¬ LeadsToCycle succ b) ⟨ha, hleads⟩
  obtain ⟨c, hbc, hc⟩ := hP b hb
  exact hsink c ((hbelow b c).mpr ⟨hbc, hbleads⟩) ⟨hc, fun h => hbleads (h.of_edge hbc)⟩

section
variable [DecidableEq α] {wl : Worklist α} {nodes : List α} {succ pred : α → List α}
  {result : List α}

/-- A vertex is left out if it has a cycle behind it. -/
theorem KahnResult.notMem_iff (h : KahnResult wl nodes succ result)
    (hpred : ∀ a b, Edge pred b a ↔ Edge succ a b) (hsource : SourcesIn nodes succ)
    (htarget : ∀ a b, Edge succ a b → b ∈ nodes) {b : α} (hb : b ∈ nodes) :
    b ∉ result ↔ LeadsToCycle pred b := by
  constructor
  · intro hres
    have hnodes : SourcesIn nodes pred := fun b a hba => htarget a b ((hpred a b).mp hba)
    apply leadsToCycle_of_forall_exists (P := fun b => b ∈ nodes ∧ b ∉ result) hnodes ?_ ⟨hb, hres⟩
    intro b hb
    by_contra! hnone
    refine h.complete b ⟨hb.1, hb.2, fun a hab => ?_⟩
    by_contra ha
    exact ha (hnone a ((hpred a b).mpr hab) (hsource a b hab))
  · intro ⟨c, hbc, hcycle⟩ hres
    -- what is behind a vertex of the result has been listed before it
    have hbefore : ∀ b c, Edge pred b c → b ∈ result →
        c ∈ result ∧ result.idxOf c < result.idxOf b := by
      intro b c hbc hb
      obtain ⟨l₁, l₂, heq⟩ := List.append_of_mem hb
      have hc : c ∈ l₁ := (h.available heq).2.2 c ((hpred c b).mp hbc)
      exact ⟨heq ▸ List.mem_append_left _ hc, h.idxOf_lt ((hpred c b).mp hbc) hb⟩
    have hc : c ∈ result := by
      clear hcycle
      induction hbc with
      | refl => exact hres
      | tail _ hedge ih => exact (hbefore _ _ hedge ih).1
    have hdescends : ∀ d, TransGen (Edge pred) c d →
        d ∈ result ∧ result.idxOf d < result.idxOf c := by
      intro d hcd
      induction hcd with
      | single hedge => exact hbefore _ _ hedge hc
      | tail _ hedge ih =>
        obtain ⟨hd, hlt⟩ := hbefore _ _ hedge ih.1
        exact ⟨hd, hlt.trans ih.2⟩
    exact lt_irrefl _ (hdescends c hcycle).2

end

section
variable {κ : Type*} [LinearOrder κ] {nodes nodes' : List α} {succ succ' : α → List α}
  {key : α → κ} {result result' : List α}

/-- There is one greedy list of the vertices. -/
theorem Greedy.unique (h : Greedy nodes succ key result) (h' : Greedy nodes' succ' key result')
    (hnodes : ∀ a, a ∈ nodes ↔ a ∈ nodes') (hedge : ∀ a b, Edge succ a b ↔ Edge succ' a b)
    (hkey : ∀ a ∈ nodes, ∀ b ∈ nodes, key a = key b → a = b)
    (hlength : result.length = result'.length) : result = result' := by
  have havailable : ∀ done b, Available nodes succ done b ↔ Available nodes' succ' done b := by
    intro done b
    unfold Available
    rw [hnodes]
    simp only [hedge]
  -- the lists agree up to every position
  have hprefix : ∀ n, result.take n = result'.take n := by
    intro n
    induction n with
    | zero => simp
    | succ n ih =>
      rcases Nat.lt_or_ge n result.length with hn | hn
      · have hn' : n < result'.length := hlength ▸ hn
        obtain ⟨ha, hleast⟩ := h _ result[n] (result.drop (n + 1))
          (by rw [List.getElem_cons_drop, List.take_append_drop])
        obtain ⟨ha', hleast'⟩ := h' _ result'[n] (result'.drop (n + 1))
          (by rw [List.getElem_cons_drop, List.take_append_drop])
        rw [← ih] at ha' hleast'
        have heq : result[n] = result'[n] := by
          apply hkey _ ha.1 _ ((hnodes _).mpr ha'.1)
          exact le_antisymm (hleast _ ((havailable _ _).mpr ha'))
            (hleast' _ ((havailable _ _).mp ha))
        rw [List.take_succ_eq_append_getElem hn, List.take_succ_eq_append_getElem hn', ih, heq]
      · rw [List.take_of_length_le (by omega), List.take_of_length_le (by omega)]
        rw [List.take_of_length_le (by omega), List.take_of_length_le (by omega)] at ih
        exact ih
  have hall := hprefix result.length
  rwa [List.take_length, hlength, List.take_length] at hall

end

end FiniteGraph
