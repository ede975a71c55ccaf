import OmnibaseCore.Graph.Basic

/-!
# Reachability by worklist

Two breadth-first searches: one marks a vertex when it is put into the queue (`pushLoop`), one
when it is taken out (`popLoop`), so that the queue may hold a vertex several times. Both
compute the vertices reachable from the queue, whatever the fuel, once it exceeds a bound that
depends on the graph only (`mem_pushLoop_iff`, `mem_popLoop_iff`).
-/

namespace FiniteGraph

open Relation

variable {α : Type*}

/-! ## The searches -/

section
variable [DecidableEq α]

/-- The loop over the successors of a vertex: those not seen before are marked and queued. -/
def pushNew : List α → Finset α → List α → Finset α × List α
  | [], seen, queue => (seen, queue)
  | b :: rest, seen, queue =>
    if b ∈ seen then pushNew rest seen queue else pushNew rest (insert b seen) (queue ++ [b])

/-- Breadth-first search, marking on entry into the queue. -/
def pushLoop (succ : α → List α) : ℕ → Finset α → List α → Finset α
  | 0, seen, _ => seen
  | _ + 1, seen, [] => seen
  | fuel + 1, seen, a :: queue =>
    let (seen, queue) := pushNew (succ a) seen queue
    pushLoop succ fuel seen queue

/-- Breadth-first search, marking on removal from the queue. -/
def popLoop (succ : α → List α) : ℕ → Finset α → List α → Finset α
  | 0, seen, _ => seen
  | _ + 1, seen, [] => seen
  | fuel + 1, seen, a :: queue =>
    if a ∈ seen then popLoop succ fuel seen queue
    else
      popLoop succ fuel (insert a seen)
        (queue ++ (succ a).filter fun b => b ∉ insert a seen)

end

/-! ## Closed sets -/

variable {succ : α → List α} {seen : Finset α} {queue : List α}

theorem reach_of_closed (hclosed : ∀ a ∈ seen, a ∉ queue → ∀ b ∈ succ a, b ∈ seen ∨ b ∈ queue)
    {a x : α} (ha : a ∈ seen) (h : ReflTransGen (Edge succ) a x) :
    x ∈ seen ∨ ∃ q ∈ queue, ReflTransGen (Edge succ) q x := by
  induction h with
  | refl => exact Or.inl ha
  | @tail b c hab hbc ih =>
    rcases ih with hb | ⟨q, hq, hqb⟩
    · by_cases hqueue : b ∈ queue
      · exact Or.inr ⟨b, hqueue, ReflTransGen.single hbc⟩
      · rcases hclosed b hb hqueue c hbc with hc | hc
        · exact Or.inl hc
        · exact Or.inr ⟨c, hc, ReflTransGen.refl⟩
    · exact Or.inr ⟨q, hq, hqb.tail hbc⟩

variable [DecidableEq α]

/-! ## Marking on removal -/

/-- The loop that pops a queue sees what can be reached from it. -/
theorem mem_popLoop_iff {sources : Finset α} (hsources : ∀ a b, b ∈ succ a → a ∈ sources) {fuel : ℕ}
    (hclosed : ∀ a ∈ seen, ∀ b ∈ succ a, b ∈ seen ∨ b ∈ queue)
    (hfuel : queue.length + ∑ a ∈ sources \ seen, (succ a).length ≤ fuel) (x : α) :
    x ∈ popLoop succ fuel seen queue ↔
      x ∈ seen ∨ ∃ q ∈ queue, ReflTransGen (Edge succ) q x := by
  induction fuel generalizing seen queue with
  | zero =>
    have hempty : queue = [] := List.length_eq_zero_iff.mp (by omega)
    rw [hempty, popLoop]
    simp
  | succ fuel ih =>
    cases queue with
    | nil =>
      rw [popLoop]
      simp
    | cons a queue =>
      rw [popLoop]
      rw [List.length_cons] at hfuel
      by_cases ha : a ∈ seen
      · have hclosed' : ∀ c ∈ seen, ∀ b ∈ succ c, b ∈ seen ∨ b ∈ queue := by
          intro c hc b hb
          rcases hclosed c hc b hb with hb | hb
          · exact Or.inl hb
          · rcases List.mem_cons.mp hb with rfl | hb
            · exact Or.inl ha
            · exact Or.inr hb
        rw [if_pos ha, ih hclosed' (by omega)]
        constructor
        · rintro (hx | ⟨q, hq, hqx⟩)
          · exact Or.inl hx
          · exact Or.inr ⟨q, List.mem_cons_of_mem a hq, hqx⟩
        · rintro (hx | ⟨q, hq, hqx⟩)
          · exact Or.inl hx
          · rcases List.mem_cons.mp hq with rfl | hq
            · exact reach_of_closed (fun c hc _ => hclosed' c hc) ha hqx
            · exact Or.inr ⟨q, hq, hqx⟩
      · have hclosed' : ∀ c ∈ insert a seen, ∀ b ∈ succ c, b ∈ insert a seen ∨
            b ∈ queue ++ (succ a).filter fun b => b ∉ insert a seen := by
          intro c hc b hb
          by_cases hseen : b ∈ insert a seen
          · exact Or.inl hseen
          · right
            rw [List.mem_append]
            rcases Finset.mem_insert.mp hc with rfl | hc
            · exact Or.inr (List.mem_filter.mpr ⟨hb, decide_eq_true hseen⟩)
            · rw [Finset.mem_insert, not_or] at hseen
              rcases hclosed c hc b hb with hb | hb
              · exact absurd hb hseen.2
              · exact Or.inl ((List.mem_cons.mp hb).resolve_left hseen.1)
        -- the successors that are queued are paid for by the vertex that is marked
        have hmeasure : (queue ++ (succ a).filter fun b => b ∉ insert a seen).length
            + ∑ c ∈ sources \ insert a seen, (succ c).length ≤ fuel := by
          have hfilter := List.length_filter_le (fun b => decide (b ∉ insert a seen)) (succ a)
          have hsum : (succ a).length + ∑ c ∈ sources \ insert a seen, (succ c).length
              = ∑ c ∈ sources \ seen, (succ c).length := by
            by_cases hsource : a ∈ sources
            · rw [Finset.sdiff_insert]
              exact Finset.add_sum_erase (sources \ seen) (fun c => (succ c).length)
                (Finset.mem_sdiff.mpr ⟨hsource, ha⟩)
            · have hnil : succ a = [] := List.eq_nil_iff_forall_not_mem.mpr fun b hb =>
                hsource (hsources a b hb)
              rw [Finset.sdiff_insert_of_notMem hsource, hnil, List.length_nil, Nat.zero_add]
          rw [List.length_append]
          omega
        rw [if_neg ha, ih hclosed' hmeasure]
        constructor
        · rintro (hx | ⟨q, hq, hqx⟩)
          · rcases Finset.mem_insert.mp hx with rfl | hx
            · exact Or.inr ⟨x, List.mem_cons_self, ReflTransGen.refl⟩
            · exact Or.inl hx
          · rcases List.mem_append.mp hq with hq | hq
            · exact Or.inr ⟨q, List.mem_cons_of_mem a hq, hqx⟩
            · exact Or.inr ⟨a, List.mem_cons_self,
                ReflTransGen.head (List.mem_filter.mp hq).1 hqx⟩
        · rintro (hx | ⟨q, hq, hqx⟩)
          · exact Or.inl (Finset.mem_insert_of_mem hx)
          · rcases List.mem_cons.mp hq with rfl | hq
            · exact reach_of_closed (fun c hc _ => hclosed' c hc)
                (Finset.mem_insert_self q seen) hqx
            · exact Or.inr ⟨q, List.mem_append_left _ hq, hqx⟩

/-! ## Marking on entry -/

theorem pushNew_spec {targets : Finset α} (l : List α) (seen : Finset α) (queue : List α)
    (hl : ∀ b ∈ l, b ∈ targets) :
    ∃ new, (pushNew l seen queue).2 = queue ++ new ∧
      (∀ x, x ∈ (pushNew l seen queue).1 ↔ x ∈ seen ∨ x ∈ new) ∧ (∀ b ∈ new, b ∈ l) ∧
      (∀ b ∈ l, b ∈ (pushNew l seen queue).1) ∧
      new.length + (targets \ (pushNew l seen queue).1).card ≤ (targets \ seen).card := by
  induction l generalizing seen queue with
  | nil => exact ⟨[], by simp [pushNew]⟩
  | cons b l ih =>
    rw [List.forall_mem_cons] at hl
    rw [pushNew]
    by_cases hb : b ∈ seen
    · rw [if_pos hb]
      rcases ih seen queue hl.2 with ⟨new, hqueue, hseen, hnew, hmarked, hcard⟩
      refine ⟨new, hqueue, hseen, fun c hc => List.mem_cons_of_mem b (hnew c hc), ?_, hcard⟩
      exact List.forall_mem_cons.mpr ⟨(hseen b).mpr (Or.inl hb), hmarked⟩
    · rw [if_neg hb]
      rcases ih (insert b seen) (queue ++ [b]) hl.2 with
        ⟨new, hqueue, hseen, hnew, hmarked, hcard⟩
      refine ⟨b :: new, ?_, fun x => ?_, ?_, ?_, ?_⟩
      · rw [hqueue, List.append_assoc, List.singleton_append]
      · rw [hseen, Finset.mem_insert, List.mem_cons]
        tauto
      · exact List.forall_mem_cons.mpr
          ⟨List.mem_cons_self, fun c hc => List.mem_cons_of_mem b (hnew c hc)⟩
      · exact List.forall_mem_cons.mpr
          ⟨(hseen b).mpr (Or.inl (Finset.mem_insert_self b seen)), hmarked⟩
      · have hlt : (targets \ insert b seen).card + 1 = (targets \ seen).card := by
          rw [Finset.sdiff_insert]
          exact Finset.card_erase_add_one (Finset.mem_sdiff.mpr ⟨hl.1, hb⟩)
        rw [List.length_cons]
        omega

/-- So does the loop that marks a node when it is pushed. -/
theorem mem_pushLoop_iff {targets : Finset α} (htargets : ∀ a b, b ∈ succ a → b ∈ targets)
    {fuel : ℕ} (hclosed : ∀ a ∈ seen, a ∉ queue → ∀ b ∈ succ a, b ∈ seen)
    (hqueue : ∀ a ∈ queue, a ∈ seen) (hfuel : queue.length + (targets \ seen).card ≤ fuel) (x : α) :
    x ∈ pushLoop succ fuel seen queue ↔
      x ∈ seen ∨ ∃ q ∈ queue, ReflTransGen (Edge succ) q x := by
  induction fuel generalizing seen queue with
  | zero =>
    have hempty : queue = [] := List.length_eq_zero_iff.mp (by omega)
    rw [hempty, pushLoop]
    simp
  | succ fuel ih =>
    cases queue with
    | nil =>
      rw [pushLoop]
      simp
    | cons a queue =>
      rw [pushLoop]
      rw [List.length_cons] at hfuel
      rcases pushNew_spec (succ a) seen queue (htargets a) with
        ⟨new, hqueue', hseen', hnew, hmarked, hcard⟩
      cases hpush : pushNew (succ a) seen queue with
      | mk seen' queue' =>
        rw [hpush] at hqueue' hseen' hmarked hcard
        dsimp only at hqueue' hseen' hmarked hcard ⊢
        subst hqueue'
        have hclosed' : ∀ c ∈ seen', c ∉ queue ++ new → ∀ b ∈ succ c, b ∈ seen' := by
          intro c hc hout b hb
          rw [List.mem_append, not_or] at hout
          have hcseen := ((hseen' c).mp hc).resolve_right hout.2
          by_cases hca : c = a
          · rw [hca] at hb
            exact hmarked b hb
          · have hcout : c ∉ a :: queue := fun h => (List.mem_cons.mp h).elim hca hout.1
            exact (hseen' b).mpr (Or.inl (hclosed c hcseen hcout b hb))
        have hinqueue : ∀ c ∈ queue ++ new, c ∈ seen' := by
          intro c hc
          rw [hseen']
          rcases List.mem_append.mp hc with hc | hc
          · exact Or.inl (hqueue c (List.mem_cons_of_mem a hc))
          · exact Or.inr hc
        have hfuel' : (queue ++ new).length + (targets \ seen').card ≤ fuel := by
          rw [List.length_append]
          omega
        rw [ih hclosed' hinqueue hfuel', hseen']
        constructor
        · rintro ((hx | hx) | ⟨q, hq, hqx⟩)
          · exact Or.inl hx
          · exact Or.inr ⟨a, List.mem_cons_self, ReflTransGen.single (hnew x hx)⟩
          · rcases List.mem_append.mp hq with hq | hq
            · exact Or.inr ⟨q, List.mem_cons_of_mem a hq, hqx⟩
            · exact Or.inr ⟨a, List.mem_cons_self, ReflTransGen.head (hnew q hq) hqx⟩
        · rintro (hx | ⟨q, hq, hqx⟩)
          · exact Or.inl (Or.inl hx)
          · rcases List.mem_cons.mp hq with rfl | hq
            · have hmark : q ∈ seen' := (hseen' q).mpr (Or.inl (hqueue q List.mem_cons_self))
              rw [← hseen']
              exact reach_of_closed (fun c hc hout b hb => Or.inl (hclosed' c hc hout b hb))
                hmark hqx
            · exact Or.inr ⟨q, List.mem_append_left _ hq, hqx⟩

end FiniteGraph
