import OmnibaseCore.Graph.Basic

/-!
# Trails into a cycle

From a vertex that leads to a cycle, the search that always takes the first successor which
leads to a cycle never comes to an end: it follows the *trail* of the vertex. The trails of
two vertices that meet go on together.
-/

namespace FiniteGraph

open Relation

variable {α : Type*}

/-- From `a` one can come to a vertex of a cycle. -/
def LeadsToCycle (succ : α → List α) (a : α) : Prop :=
  ∃ b, ReflTransGen (Edge succ) a b ∧ TransGen (Edge succ) b b

/-- `b` is the first successor of `a` that leads to a cycle. -/
def FirstCyclic (succ : α → List α) (a b : α) : Prop :=
  ∃ before after, succ a = before ++ b :: after ∧ (∀ c ∈ before, ¬ LeadsToCycle succ c) ∧
    LeadsToCycle succ b

/-- `b` is on the trail of `a`. -/
def Trail (succ : α → List α) : α → α → Prop := ReflTransGen (FirstCyclic succ)

/-- `b` is on the trail of one of the vertices of `l` that lead to a cycle. -/
def OnTrails (succ : α → List α) (l : List α) (b : α) : Prop :=
  ∃ a ∈ l, LeadsToCycle succ a ∧ Trail succ a b

/-- The trail of `a` does not run into the trail of a vertex of `earlier`, unless it does so at
once. -/
def ApartFrom (succ : α → List α) (earlier : List α) (a : α) : Prop :=
  LeadsToCycle succ a →
    OnTrails succ earlier a ∨ ∀ b, OnTrails succ earlier b → ¬ Trail succ a b

/-- No vertex of `roots` has a trail that runs into the trail of an earlier one. -/
def TrailsApart (succ : α → List α) (roots : List α) : Prop :=
  ∀ earlier a later, roots = earlier ++ a :: later → ApartFrom succ earlier a

/-- A walk along `r` that ends where it began. -/
def ClosedWalk (r : α → α → Prop) (l : List α) : Prop :=
  l.IsChain r ∧ 2 ≤ l.length ∧ l.head? = l.getLast?

variable {succ : α → List α} {a b c : α}

/-! ## Vertices that lead to a cycle -/

theorem LeadsToCycle.of_reach (hab : ReflTransGen (Edge succ) a b) (h : LeadsToCycle succ b) :
    LeadsToCycle succ a := by
  obtain ⟨c, hbc, hcycle⟩ := h
  exact ⟨c, hab.trans hbc, hcycle⟩

theorem LeadsToCycle.of_edge (hab : Edge succ a b) (h : LeadsToCycle succ b) :
    LeadsToCycle succ a :=
  h.of_reach (ReflTransGen.single hab)

theorem LeadsToCycle.exists_edge (h : LeadsToCycle succ a) :
    ∃ b, Edge succ a b ∧ LeadsToCycle succ b := by
  obtain ⟨c, hac, hcycle⟩ := h
  rcases ReflTransGen.cases_head hac with rfl | ⟨b, hab, hbc⟩
  · -- the vertex is on the cycle, and so is what follows it
    obtain ⟨b, hab, hba⟩ := TransGen.head'_iff.mp hcycle
    exact ⟨b, hab, a, hba, hcycle⟩
  · exact ⟨b, hab, c, hbc, hcycle⟩

theorem exists_leadsToCycle_iff : (∃ a, LeadsToCycle succ a) ↔ ∃ a, TransGen (Edge succ) a a := by
  constructor
  · intro ⟨_, b, _, hcycle⟩
    exact ⟨b, hcycle⟩
  · intro ⟨a, hcycle⟩
    exact ⟨a, a, ReflTransGen.refl, hcycle⟩

/-! ## Trails -/

theorem FirstCyclic.edge (h : FirstCyclic succ a b) : Edge succ a b := by
  obtain ⟨before, after, hsucc, -, -⟩ := h
  show b ∈ succ a
  rw [hsucc]
  exact List.mem_append_right before List.mem_cons_self

theorem FirstCyclic.leadsToCycle (h : FirstCyclic succ a b) : LeadsToCycle succ b := by
  obtain ⟨-, -, -, -, hb⟩ := h
  exact hb

theorem FirstCyclic.right_unique (hb : FirstCyclic succ a b) (hc : FirstCyclic succ a c) :
    b = c := by
  obtain ⟨before, after, hsucc, hbefore, hb⟩ := hb
  obtain ⟨before', after', hsucc', hbefore', hc⟩ := hc
  rw [hsucc] at hsucc'
  rcases List.append_eq_append_iff.mp hsucc' with ⟨l, rfl, hl⟩ | ⟨l, rfl, hl⟩
  · cases l with
    | nil => exact (List.cons.inj hl).1
    | cons d l =>
      obtain ⟨rfl, -⟩ := List.cons.inj hl
      exact absurd hb (hbefore' b (List.mem_append_right before List.mem_cons_self))
  · cases l with
    | nil => exact (List.cons.inj hl).1.symm
    | cons d l =>
      obtain ⟨rfl, -⟩ := List.cons.inj hl
      exact absurd hc (hbefore c (List.mem_append_right before' List.mem_cons_self))

theorem exists_firstCyclic (h : LeadsToCycle succ a) : ∃ b, FirstCyclic succ a b := by
  classical
  obtain ⟨b, hab, hb⟩ := h.exists_edge
  have hfind : ((succ a).find? fun c => decide (LeadsToCycle succ c)).isSome := by
    rw [List.find?_isSome]
    exact ⟨b, hab, decide_eq_true hb⟩
  obtain ⟨c, hc⟩ := Option.isSome_iff_exists.mp hfind
  obtain ⟨hc, before, after, hsucc, hbefore⟩ := List.find?_eq_some_iff_append.mp hc
  exact ⟨c, before, after, hsucc, fun d hd => by simpa using hbefore d hd, of_decide_eq_true hc⟩

theorem Trail.leadsToCycle (h : Trail succ a b) (ha : LeadsToCycle succ a) :
    LeadsToCycle succ b := by
  cases h with
  | refl => exact ha
  | tail _ hcb => exact hcb.leadsToCycle

theorem trail_iff_of_firstCyclic (hab : FirstCyclic succ a b) :
    Trail succ a c ↔ c = a ∨ Trail succ b c := by
  constructor
  · intro h
    rcases ReflTransGen.cases_head h with rfl | ⟨d, had, hdc⟩
    · exact Or.inl rfl
    · rw [hab.right_unique had]
      exact Or.inr hdc
  · intro h
    rcases h with rfl | h
    · exact ReflTransGen.refl
    · exact ReflTransGen.head hab h

variable {l : List α}

theorem OnTrails.leadsToCycle (h : OnTrails succ l b) : LeadsToCycle succ b := by
  obtain ⟨a, -, ha, hab⟩ := h
  exact hab.leadsToCycle ha

theorem onTrails_append_singleton :
    OnTrails succ (l ++ [a]) b ↔ OnTrails succ l b ∨ LeadsToCycle succ a ∧ Trail succ a b := by
  unfold OnTrails
  simp only [List.mem_append, List.mem_singleton, or_and_right, exists_or, exists_eq_left]

theorem onTrails_append_iff (ha : LeadsToCycle succ a → OnTrails succ l a) (b : α) :
    OnTrails succ (l ++ [a]) b ↔ OnTrails succ l b := by
  rw [onTrails_append_singleton, or_iff_left_iff_imp]
  intro ⟨hcycle, hab⟩
  obtain ⟨s, hs, hscycle, hsa⟩ := ha hcycle
  exact ⟨s, hs, hscycle, hsa.trans hab⟩

theorem apartFrom_cons_iff {earlier later : List α} :
    (∀ pre b post, a :: later = pre ++ b :: post → ApartFrom succ (earlier ++ pre) b) ↔
      ApartFrom succ earlier a ∧
        ∀ pre b post, later = pre ++ b :: post → ApartFrom succ (earlier ++ [a] ++ pre) b := by
  constructor
  · intro h
    refine ⟨?_, fun pre b post hlater => ?_⟩
    · have ha := h [] a later rfl
      rwa [List.append_nil] at ha
    · have hb := h (a :: pre) b post (by rw [hlater, List.cons_append])
      rwa [List.append_assoc, List.singleton_append]
  · intro ⟨ha, hlater⟩ pre b post h
    cases pre with
    | nil =>
      obtain ⟨rfl, -⟩ := List.cons.inj h
      rwa [List.append_nil]
    | cons c pre =>
      obtain ⟨rfl, htail⟩ := List.cons.inj h
      have hb := hlater pre b post htail
      rwa [List.append_assoc, List.singleton_append] at hb

/-- A trail that comes back to a vertex of its own. -/
theorem Trail.mem_of_closes (hchain : l.IsChain (FirstCyclic succ)) (hlast : l.getLast? = some a)
    (hback : FirstCyclic succ a b) (hb : b ∈ l) (h : Trail succ b c) : c ∈ l := by
  induction h with
  | refl => exact hb
  | @tail d c _ hdc ih =>
    obtain ⟨before, after, rfl⟩ := List.append_of_mem ih
    cases after with
    | nil =>
      -- the last vertex of the list goes back to `b`
      rw [List.getLast?_append, List.getLast?_singleton] at hlast
      obtain rfl := Option.some.inj hlast
      rw [hdc.right_unique hback]
      exact hb
    | cons e after =>
      have hde : FirstCyclic succ d e := (List.isChain_append.mp hchain).2.1.rel
      rw [hdc.right_unique hde]
      exact List.mem_append_right before (List.mem_cons_of_mem d List.mem_cons_self)

/-! ## Closed walks -/

theorem closedWalk_drop [DecidableEq α] {r : α → α → Prop} {start : ℕ} (hchain : l.IsChain r)
    (hlast : l.getLast? = some a) (hback : r a b) (hstart : l.idxOf? b = some start) :
    ClosedWalk r (l.drop start ++ [b]) := by
  obtain ⟨hlt, hget, -⟩ := List.idxOf?_eq_some_iff.mp hstart
  have hhead : (l.drop start).head? = some b := by
    rw [List.head?_drop, List.getElem?_eq_getElem hlt, hget]
  have hlast' : (l.drop start).getLast? = some a := by
    rw [List.getLast?_drop, if_neg (by omega), hlast]
  refine ⟨?_, ?_, ?_⟩
  · rw [List.isChain_append]
    refine ⟨hchain.drop start, List.isChain_singleton b, fun x hx y hy => ?_⟩
    rw [hlast', Option.mem_some_iff] at hx
    rw [List.head?_singleton, Option.mem_some_iff] at hy
    rw [← hx, ← hy]
    exact hback
  · rw [List.length_append, List.length_drop, List.length_singleton]
    omega
  · rw [List.head?_append, hhead, List.getLast?_append, List.getLast?_singleton]
    rfl

end FiniteGraph
