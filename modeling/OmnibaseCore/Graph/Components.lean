import Mathlib.Data.Finset.Dedup
import Mathlib.Data.Finset.Filter

/-!
# Strongly connected components

A component is given as a list of its vertices. `Exploration` says what a depth-first search with
a stack of unfinished vertices keeps true: it knows the numbers of the vertices seen so far, the
stack, and the path of the calls under way. The rules are those of Tarjan's algorithm: a vertex is
entered (`Exploration.enter`), the part of the stack above a vertex without an edge further down
is a component (`Exploration.isComponent`) and is taken off (`Exploration.pop`), and a vertex that
reaches an older one is left on the stack (`Exploration.keep`).
-/

namespace FiniteGraph

open Relation

variable {α : Type*} {r : α → α → Prop}

/-! ## Components -/

/-- Each of the two vertices reaches the other. -/
def Mutual (r : α → α → Prop) (a b : α) : Prop := ReflTransGen r a b ∧ ReflTransGen r b a

/-- The vertices of the list are those of a strongly connected component, each once. -/
structure IsComponent (r : α → α → Prop) (l : List α) : Prop where
  nodup : l.Nodup
  nonempty : l ≠ []
  mem_iff : ∀ a ∈ l, ∀ b, b ∈ l ↔ Mutual r a b

/-- The component has two vertices, or one with an edge to itself. -/
def HasCycle (r : α → α → Prop) (l : List α) : Prop := 1 < l.length ∨ ∃ a, l = [a] ∧ r a a

variable {l l' : List α}

theorem IsComponent.perm (h : IsComponent r l) (hperm : l'.Perm l) :
    IsComponent r l' where
  nodup := hperm.nodup_iff.mpr h.nodup
  nonempty := fun hnil => h.nonempty (List.nil_perm.mp (hnil ▸ hperm))
  mem_iff a ha b := by
    rw [hperm.mem_iff] at ha ⊢
    exact h.mem_iff a ha b

theorem HasCycle.perm (h : HasCycle r l) (hperm : l'.Perm l) :
    HasCycle r l' := by
  rcases h with hlength | ⟨a, rfl, hloop⟩
  · exact Or.inl (hperm.length_eq ▸ hlength)
  · exact Or.inr ⟨a, List.perm_singleton.mp hperm, hloop⟩

variable {a : α}

theorem IsComponent.perm_of_mem (h : IsComponent r l) (h' : IsComponent r l')
    (ha : a ∈ l) (ha' : a ∈ l') : l.Perm l' := by
  rw [List.perm_ext_iff_of_nodup h.nodup h'.nodup]
  intro b
  rw [h.mem_iff a ha, h'.mem_iff a ha']

/-- A component has a cycle if and only if a node of it reaches itself. -/
theorem IsComponent.hasCycle_iff {l : List α} (h : IsComponent r l) (ha : a ∈ l) :
    HasCycle r l ↔ TransGen r a a := by
  constructor
  · rintro (hlength | ⟨b, rfl, hloop⟩)
    · have hother : ∃ b ∈ l, b ≠ a := by
        by_contra hnone
        push Not at hnone
        have hle : l.length ≤ [a].length :=
          (h.nodup.subperm fun b hb => List.mem_singleton.mpr (hnone b hb)).length_le
        rw [List.length_singleton] at hle
        omega
      rcases hother with ⟨b, hb, hne⟩
      rcases (h.mem_iff a ha b).mp hb with ⟨hab, hba⟩
      rcases ReflTransGen.cases_head hab with heq | ⟨c, hac, hcb⟩
      · exact absurd heq.symm hne
      · exact TransGen.head' hac (hcb.trans hba)
    · rw [List.mem_singleton] at ha
      rw [ha]
      exact TransGen.single hloop
  · intro hcycle
    rcases TransGen.head'_iff.mp hcycle with ⟨b, hab, hba⟩
    have hb : b ∈ l := (h.mem_iff a ha b).mpr ⟨ReflTransGen.single hab, hba⟩
    by_cases hlength : 1 < l.length
    · exact Or.inl hlength
    · have hone : l.length = 1 := by
        have hpos := List.length_pos_of_mem ha
        omega
      rcases List.length_eq_one_iff.mp hone with ⟨c, rfl⟩
      rw [List.mem_singleton] at ha hb
      rw [ha, hb] at hab
      exact Or.inr ⟨c, rfl, hab⟩

theorem exists_isComponent {vertices : Finset α} (h : ∀ b, Mutual r a b → b ∈ vertices) :
    ∃ l, IsComponent r l ∧ a ∈ l := by
  classical
  have hmem : ∀ b, b ∈ (vertices.filter (Mutual r a)).toList ↔ Mutual r a b := by
    intro b
    rw [Finset.mem_toList, Finset.mem_filter]
    exact ⟨fun hb => hb.2, fun hb => ⟨h b hb, hb⟩⟩
  have ha := (hmem a).mpr ⟨ReflTransGen.refl, ReflTransGen.refl⟩
  refine ⟨_, ⟨Finset.nodup_toList _, List.ne_nil_of_mem ha, fun b hb c => ?_⟩, ha⟩
  rcases (hmem b).mp hb with ⟨hab, hba⟩
  rw [hmem]
  exact ⟨fun ⟨hac, hca⟩ => ⟨hba.trans hac, hca.trans hab⟩,
    fun ⟨hbc, hcb⟩ => ⟨hab.trans hbc, hcb.trans hba⟩⟩

/-! ## Exploration -/

def number (index : α → Option ℕ) (a : α) : ℕ := (index a).getD 0

/-- A vertex that the search is done with. -/
def Finished (index : α → Option ℕ) (stack : List α) (a : α) : Prop :=
  (index a).isSome ∧ a ∉ stack

/-- A depth-first search under way. The stack and the path of calls have their tops first. -/
structure Exploration (r : α → α → Prop) (path stack : List α) (index : α → Option ℕ)
    (counter : ℕ) : Prop where
  lt_counter : ∀ a i, index a = some i → i < counter
  seen : ∀ a ∈ stack, (index a).isSome
  decreasing : stack.Pairwise fun a b => number index b < number index a
  path_mem : ∀ a ∈ path, a ∈ stack
  explored : ∀ a b, (index a).isSome → a ∉ path → r a b → (index b).isSome
  closed : ∀ a b, Finished index stack a → r a b → Finished index stack b
  upwards : ∀ a ∈ stack, ∀ b ∈ stack, number index a ≤ number index b → ReflTransGen r a b
  to_path : ∀ a ∈ stack, ∃ p ∈ path, number index p ≤ number index a ∧ ReflTransGen r a p

namespace Exploration

variable {path stack above : List α} {index : α → Option ℕ} {counter : ℕ} {node : α}

theorem start (r : α → α → Prop) : Exploration r [] [] (fun _ => none) 0 where
  lt_counter := fun _ _ h => nomatch h
  seen := by simp
  decreasing := List.Pairwise.nil
  path_mem := by simp
  explored := fun _ _ h => nomatch h
  closed := fun _ _ h => nomatch h.1
  upwards := by simp
  to_path := by simp

section
variable (h : Exploration r path stack index counter)
include h

theorem nodup : stack.Nodup :=
  h.decreasing.imp fun hlt heq => by
    rw [heq] at hlt
    exact Nat.lt_irrefl _ hlt

theorem number_lt {a : α} (ha : a ∈ stack) :
    number index a < counter := by
  rcases Option.isSome_iff_exists.mp (h.seen a ha) with ⟨i, hi⟩
  unfold number
  rw [hi]
  exact h.lt_counter a i hi

theorem finished_of_reach {a b : α}
    (ha : Finished index stack a) (hab : ReflTransGen r a b) : Finished index stack b := by
  induction hab with
  | refl => exact ha
  | tail _ hedge ih => exact h.closed _ _ ih hedge

end

theorem stack_eq_nil (h : Exploration r [] stack index counter) : stack = [] := by
  rw [List.eq_nil_iff_forall_not_mem]
  intro a ha
  rcases h.to_path a ha with ⟨p, hp, -⟩
  cases hp

/-! ### Entering a vertex -/

theorem enter [DecidableEq α] (h : Exploration r path stack index counter)
    (hnew : index node = none) (hreach : ∀ p ∈ path, ReflTransGen r p node) :
    Exploration r (node :: path) (node :: stack)
      (Function.update index node (some counter)) (counter + 1) := by
  have hself : number (Function.update index node (some counter)) node = counter := by
    unfold number
    rw [Function.update_self]
    rfl
  have hout : ∀ a, (index a).isSome → a ≠ node := by
    intro a ha heq
    rw [heq, hnew] at ha
    cases ha
  -- the numbers that are given already stay
  have hother : ∀ a, (index a).isSome →
      number (Function.update index node (some counter)) a = number index a := by
    intro a ha
    unfold number
    rw [Function.update_of_ne (hout a ha)]
  have hisSome : ∀ a, (Function.update index node (some counter) a).isSome ↔
      a = node ∨ (index a).isSome := by
    intro a
    by_cases ha : a = node
    · rw [ha, Function.update_self]
      simp
    · rw [Function.update_of_ne ha]
      simp [ha]
  have hfinished : ∀ a, Finished (Function.update index node (some counter)) (node :: stack) a ↔
      Finished index stack a := by
    intro a
    unfold Finished
    rw [hisSome, List.mem_cons, not_or]
    constructor
    · rintro ⟨hseen, hne, hstack⟩
      exact ⟨hseen.resolve_left hne, hstack⟩
    · rintro ⟨hseen, hstack⟩
      exact ⟨Or.inr hseen, hout a hseen, hstack⟩
  refine ⟨?_, ?_, ?_, ?_, ?_, ?_, ?_, ?_⟩
  · intro a i hi
    by_cases ha : a = node
    · rw [ha, Function.update_self, Option.some.injEq] at hi
      omega
    · rw [Function.update_of_ne ha] at hi
      have hlt := h.lt_counter a i hi
      omega
  · intro a ha
    rw [hisSome]
    exact (List.mem_cons.mp ha).imp id (h.seen a)
  · rw [List.pairwise_cons]
    refine ⟨fun a ha => ?_, h.decreasing.imp_of_mem fun {a b} ha hb hlt => ?_⟩
    · rw [hself, hother a (h.seen a ha)]
      exact h.number_lt ha
    · rw [hother a (h.seen a ha), hother b (h.seen b hb)]
      exact hlt
  · intro a ha
    rw [List.mem_cons] at ha ⊢
    exact ha.imp id (h.path_mem a)
  · intro a b ha hpath hedge
    rw [List.mem_cons, not_or] at hpath
    rw [hisSome] at ha ⊢
    exact Or.inr (h.explored a b (ha.resolve_left hpath.1) hpath.2 hedge)
  · intro a b ha hedge
    rw [hfinished] at ha ⊢
    exact h.closed a b ha hedge
  · intro a ha b hb hle
    rcases List.mem_cons.mp ha with heq | ha
    · rw [heq] at hle ⊢
      rcases List.mem_cons.mp hb with heq | hb
      · rw [heq]
      · -- an older vertex has a smaller number
        rw [hself, hother b (h.seen b hb)] at hle
        have hlt := h.number_lt hb
        omega
    · rcases List.mem_cons.mp hb with heq | hb
      · rw [heq]
        rcases h.to_path a ha with ⟨p, hp, -, hap⟩
        exact hap.trans (hreach p hp)
      · rw [hother a (h.seen a ha), hother b (h.seen b hb)] at hle
        exact h.upwards a ha b hb hle
  · intro a ha
    rcases List.mem_cons.mp ha with rfl | ha
    · exact ⟨a, List.mem_cons_self, Nat.le_refl _, ReflTransGen.refl⟩
    · rcases h.to_path a ha with ⟨p, hp, hle, hap⟩
      refine ⟨p, List.mem_cons_of_mem node hp, ?_, hap⟩
      rw [hother a (h.seen a ha), hother p (h.seen p (h.path_mem p hp))]
      exact hle

/-! ### Leaving a vertex -/

/-- A vertex of which all successors have been seen, and which reaches an older vertex, stays on
the stack. -/
theorem keep (h : Exploration r (node :: path) stack index counter)
    (hpath : ∀ p ∈ path, p ∈ stack) (hsucc : ∀ b, r node b → (index b).isSome) {z : α}
    (hz : z ∈ stack) (hlt : number index z < number index node) (hreach : ReflTransGen r node z) :
    Exploration r path stack index counter := by
  have holder : ∃ p ∈ path, number index p ≤ number index z ∧ ReflTransGen r z p := by
    rcases h.to_path z hz with ⟨p, hp, hle, hzp⟩
    rcases List.mem_cons.mp hp with rfl | hp
    · omega
    · exact ⟨p, hp, hle, hzp⟩
  refine ⟨h.lt_counter, h.seen, h.decreasing, hpath, ?_, h.closed, h.upwards, ?_⟩
  · intro a b ha hout hedge
    by_cases hnode : a = node
    · rw [hnode] at hedge
      exact hsucc b hedge
    · exact h.explored a b ha (List.not_mem_cons_of_ne_of_not_mem hnode hout) hedge
  · intro a ha
    rcases h.to_path a ha with ⟨p, hp, hle, hap⟩
    rcases List.mem_cons.mp hp with rfl | hp
    · rcases holder with ⟨q, hq, hqz, hzq⟩
      exact ⟨q, hq, by omega, hap.trans (hreach.trans hzq)⟩
    · exact ⟨p, hp, hle, hap⟩

section
variable (h : Exploration r (node :: path) (above ++ node :: stack) index counter)

include h in
theorem number_lt_of_below {b : α} (hb : b ∈ stack) : number index b < number index node := by
  have hright := (List.pairwise_append.mp h.decreasing).2.1
  exact (List.pairwise_cons.mp hright).1 b hb

include h in
theorem le_number_of_top {a : α} (ha : a ∈ above ++ [node]) :
    number index node ≤ number index a := by
  rcases List.mem_append.mp ha with ha | ha
  · exact Nat.le_of_lt ((List.pairwise_append.mp h.decreasing).2.2 a ha node List.mem_cons_self)
  · exact Nat.le_of_eq (congrArg (number index) (List.mem_singleton.mp ha).symm)

omit h in
theorem top_mem {a : α} (ha : a ∈ above ++ [node]) : a ∈ above ++ node :: stack := by
  rw [List.mem_append, List.mem_singleton] at ha
  rw [List.mem_append, List.mem_cons]
  exact ha.imp id Or.inl

variable (hpath : ∀ p ∈ path, p ∈ stack) (hsucc : ∀ b, r node b → (index b).isSome)
  (hcross : ∀ a ∈ above ++ [node], ∀ b ∈ stack, ¬ r a b)

include h hpath hsucc hcross in
theorem top_closed {a b : α} (ha : a ∈ above ++ [node]) (hedge : r a b) :
    b ∈ above ++ [node] ∨ Finished index (above ++ node :: stack) b := by
  have hseen : (index b).isSome := by
    by_cases hnode : a = node
    · rw [hnode] at hedge
      exact hsucc b hedge
    · refine h.explored a b (h.seen a (top_mem ha)) ?_ hedge
      refine List.not_mem_cons_of_ne_of_not_mem hnode fun hmem => ?_
      have hlow := h.number_lt_of_below (hpath a hmem)
      have hhigh := h.le_number_of_top ha
      omega
  by_cases hstack : b ∈ above ++ node :: stack
  · left
    rw [List.mem_append, List.mem_cons] at hstack
    rw [List.mem_append, List.mem_singleton]
    refine hstack.imp id fun hb => hb.resolve_right fun hb => hcross a ha b hb hedge
  · exact Or.inr ⟨hseen, hstack⟩

include h hpath hsucc hcross in
theorem top_reach {a b : α} (ha : a ∈ above ++ [node]) (hab : ReflTransGen r a b) :
    b ∈ above ++ [node] ∨ Finished index (above ++ node :: stack) b := by
  induction hab with
  | refl => exact Or.inl ha
  | tail _ hedge ih =>
    rcases ih with htop | hfinished
    · exact top_closed h hpath hsucc hcross htop hedge
    · exact Or.inr (h.closed _ _ hfinished hedge)

include h hpath hsucc hcross in
/-- The top of the stack down to a vertex is a component when no edge leads further down. -/
theorem isComponent (hreach : ∀ p ∈ path, ReflTransGen r p node) :
    IsComponent r (above ++ [node]) := by
  have hself : node ∈ above ++ [node] := List.mem_append_right above List.mem_cons_self
  have hto : ∀ a ∈ above ++ [node], ReflTransGen r a node := by
    intro a ha
    rcases h.to_path a (top_mem ha) with ⟨p, hp, -, hap⟩
    rcases List.mem_cons.mp hp with rfl | hp
    · exact hap
    · exact hap.trans (hreach p hp)
  have hfrom : ∀ a ∈ above ++ [node], ReflTransGen r node a := fun a ha =>
    h.upwards node (top_mem hself) a (top_mem ha) (h.le_number_of_top ha)
  refine ⟨?_, ?_, fun a ha b => ⟨fun hb => ?_, fun hmutual => ?_⟩⟩
  · refine h.nodup.sublist ?_
    exact (List.Sublist.refl above).append (List.singleton_sublist.mpr List.mem_cons_self)
  · simp
  · exact ⟨(hto a ha).trans (hfrom b hb), (hto b hb).trans (hfrom a ha)⟩
  · rcases top_reach h hpath hsucc hcross ha hmutual.1 with htop | hfinished
    · exact htop
    · -- what a finished vertex reaches is finished, but `a` is on the stack
      exact absurd (top_mem ha) (h.finished_of_reach hfinished hmutual.2).2

include h in
theorem finished_pop (a : α) : Finished index stack a ↔
    Finished index (above ++ node :: stack) a ∨ a ∈ above ++ [node] := by
  have hnodup := h.nodup
  have hsplit : a ∈ above ++ node :: stack ↔ a ∈ above ++ [node] ∨ a ∈ stack := by
    simp only [List.mem_append, List.mem_cons]
    tauto
  constructor
  · rintro ⟨hseen, hstack⟩
    by_cases htop : a ∈ above ++ [node]
    · exact Or.inr htop
    · exact Or.inl ⟨hseen, fun hmem => (hsplit.mp hmem).elim htop hstack⟩
  · rintro (⟨hseen, hstack⟩ | htop)
    · exact ⟨hseen, fun hmem => hstack (hsplit.mpr (Or.inr hmem))⟩
    · refine ⟨h.seen a (top_mem htop), fun hmem => ?_⟩
      have hlow := h.number_lt_of_below hmem
      have hhigh := h.le_number_of_top htop
      omega

include h hpath hsucc hcross in
/-- The component is taken off the stack. -/
theorem pop : Exploration r path stack index counter := by
  have hmem : ∀ a ∈ stack, a ∈ above ++ node :: stack := fun a ha =>
    List.mem_append_right above (List.mem_cons_of_mem node ha)
  refine ⟨h.lt_counter, fun a ha => h.seen a (hmem a ha), ?_, hpath, ?_, ?_, ?_, ?_⟩
  · exact (List.pairwise_cons.mp (List.pairwise_append.mp h.decreasing).2.1).2
  · intro a b ha hout hedge
    by_cases hnode : a = node
    · rw [hnode] at hedge
      exact hsucc b hedge
    · exact h.explored a b ha (List.not_mem_cons_of_ne_of_not_mem hnode hout) hedge
  · intro a b ha hedge
    rw [h.finished_pop] at ha ⊢
    rcases ha with hfinished | htop
    · exact Or.inl (h.closed a b hfinished hedge)
    · exact (top_closed h hpath hsucc hcross htop hedge).symm
  · exact fun a ha b hb hle => h.upwards a (hmem a ha) b (hmem b hb) hle
  · intro a ha
    rcases h.to_path a (hmem a ha) with ⟨p, hp, hle, hap⟩
    rcases List.mem_cons.mp hp with rfl | hp
    · have hlt := h.number_lt_of_below ha
      omega
    · exact ⟨p, hp, hle, hap⟩

end

end Exploration

/-! ## The components found -/

/-- The lists are the components with a cycle among the vertices that are done, each once. -/
structure Found (r : α → α → Prop) (done : α → Prop) (components : List (List α)) : Prop where
  isComponent : ∀ l ∈ components, IsComponent r l
  hasCycle : ∀ l ∈ components, HasCycle r l
  all_done : ∀ l ∈ components, ∀ a ∈ l, done a
  complete : ∀ a, done a → TransGen r a a → ∃ l ∈ components, a ∈ l
  disjoint : components.Pairwise List.Disjoint

theorem Found.congr {done done' : α → Prop} {components : List (List α)}
    (h : Found r done components) (hiff : ∀ a, done' a ↔ done a) : Found r done' components where
  isComponent := h.isComponent
  hasCycle := h.hasCycle
  all_done l hl a ha := (hiff a).mpr (h.all_done l hl a ha)
  complete a ha := h.complete a ((hiff a).mp ha)
  disjoint := h.disjoint

section
variable {done done' : α → Prop} {components : List (List α)} {l : List α}

section
variable (h : Found r done components)
include h

/-- A component with a cycle is added. -/
theorem Found.add (hl : IsComponent r l) (hcycle : HasCycle r l)
    (hfresh : ∀ a ∈ l, ¬ done a) (hiff : ∀ a, done' a ↔ done a ∨ a ∈ l) :
    Found r done' (components ++ [l]) where
  isComponent k hk := by
    rcases List.mem_append.mp hk with hk | hk
    · exact h.isComponent k hk
    · exact List.mem_singleton.mp hk ▸ hl
  hasCycle k hk := by
    rcases List.mem_append.mp hk with hk | hk
    · exact h.hasCycle k hk
    · exact List.mem_singleton.mp hk ▸ hcycle
  all_done k hk a ha := by
    rw [hiff]
    rcases List.mem_append.mp hk with hk | hk
    · exact Or.inl (h.all_done k hk a ha)
    · exact Or.inr (List.mem_singleton.mp hk ▸ ha)
  complete a ha hloop := by
    rcases (hiff a).mp ha with hdone | hmem
    · rcases h.complete a hdone hloop with ⟨k, hk, hak⟩
      exact ⟨k, List.mem_append_left [l] hk, hak⟩
    · exact ⟨l, List.mem_append_right components List.mem_cons_self, hmem⟩
  disjoint := by
    rw [List.pairwise_append]
    refine ⟨h.disjoint, List.pairwise_singleton _ l, fun k hk k' hk' a hak hak' => ?_⟩
    rw [List.mem_singleton.mp hk'] at hak'
    exact hfresh a hak' (h.all_done k hk a hak)

theorem Found.skip (hl : IsComponent r l) (hcycle : ¬ HasCycle r l)
    (hiff : ∀ a, done' a ↔ done a ∨ a ∈ l) : Found r done' components where
  isComponent := h.isComponent
  hasCycle := h.hasCycle
  all_done k hk a ha := (hiff a).mpr (Or.inl (h.all_done k hk a ha))
  complete a ha hloop := by
    rcases (hiff a).mp ha with hdone | hmem
    · exact h.complete a hdone hloop
    · exact absurd ((hl.hasCycle_iff hmem).mpr hloop) hcycle
  disjoint := h.disjoint

theorem Found.exists_perm (hdone : ∀ a ∈ l, done a)
    (hl : IsComponent r l) (hcycle : HasCycle r l) : ∃ k ∈ components, k.Perm l := by
  rcases List.exists_mem_of_ne_nil l hl.nonempty with ⟨a, ha⟩
  rcases h.complete a (hdone a ha) ((hl.hasCycle_iff ha).mp hcycle) with ⟨k, hk, hak⟩
  exact ⟨k, hk, (h.isComponent k hk).perm_of_mem hl hak ha⟩

end

end

end FiniteGraph
