import OmnibaseCore.Fsm.Analysis
import OmnibaseCore.Graph.Components

/-!
# Cycles without exit

`strongconnect` finds the strongly connected components of the graph of a machine
(`strongconnect_searched`), and the search from a component finds a listed terminal state iff one
can be reached (`canExit_iff`). A state that is only flagged as terminal is no exit for the
analyser, so its result is exact iff such states make no difference (`exactCycles_iff`).
-/

namespace OmnibaseCore.Fsm

open FiniteGraph Relation

/-! ## What is to be found -/

/-- A transition leads from the one state to the other. A wildcard leads from every state. -/
def Leads (fsm : ModelFSMSubcontract) (a b : String) : Prop :=
  a ∈ fsm.stateNames ∧
    ∃ t ∈ fsm.transitions, (t.fromState = "*" ∨ t.fromState = a) ∧ t.toState = b

def Exits (fsm : ModelFSMSubcontract) (terminal : Finset String) (l : List String) : Prop :=
  ∃ a ∈ l, ∃ t ∈ terminal, ReflTransGen (Leads fsm) a t

/-- The lists are the components with a cycle that reach no terminal state, each once and each
sorted. -/
structure ExactCycles (fsm : ModelFSMSubcontract) (cycles : List (List String)) : Prop where
  once : cycles.Nodup
  mem_iff : ∀ l, l ∈ cycles ↔ l.Pairwise (· ≤ ·) ∧ IsComponent (Leads fsm) l ∧
    HasCycle (Leads fsm) l ∧ ¬ Exits fsm fsm.terminalStateNames l

/-! ## The variables of the search -/

/-- What holds of the variables while the calls of `strongconnect` on a path are under way. -/
structure TarjanState.Invariant (succ : String → List String) (path : List String)
    (st : TarjanState) : Prop where
  exploration : Exploration (Edge succ) path st.stack st.indexMap st.counter
  mem_onStack : ∀ a, a ∈ st.onStack ↔ a ∈ st.stack
  found : Found (Edge succ) (Finished st.indexMap st.stack) st.sccs

/-- Vertices are put on the stack, and what is known about vertices seen before is kept. -/
structure TarjanState.Extends (st st' : TarjanState) (above : List String) : Prop where
  stack_eq : st'.stack = above ++ st.stack
  index_eq : ∀ a, (st.indexMap a).isSome → st'.indexMap a = st.indexMap a
  lowlinks_eq : ∀ a, (st.indexMap a).isSome → st'.lowlinks a = st.lowlinks a

/-- The call of `strongconnect` on a vertex has returned. Its low link is the number of a vertex
below, which no edge out of what it left on the stack undercuts. -/
structure Searched (succ : String → List String) (path : List String) (node : String)
    (st st' : TarjanState) : Prop where
  invariant : st'.Invariant succ path
  seen : (st'.indexMap node).isSome
  stack : ∃ above, st.Extends st' above ∧ ∀ a ∈ above, ∀ b ∈ st.stack, Edge succ a b →
    st'.lowlinks node ≤ number st'.indexMap b
  low : st.counter ≤ st'.lowlinks node ∨ ∃ z ∈ st.stack,
    st'.lowlinks node = number st'.indexMap z ∧ ReflTransGen (Edge succ) node z

/-- The loop over the successors of a vertex, after some of them. -/
structure Scanned (succ : String → List String) (path : List String) (node : String)
    (st : TarjanState) (visited : List String) (s : TarjanState) : Prop where
  invariant : s.Invariant succ (node :: path)
  index_node : s.indexMap node = some st.counter
  stack : ∃ above, st.Extends s (above ++ [node]) ∧ ∀ a ∈ above, ∀ b ∈ st.stack,
    Edge succ a b → s.lowlinks node ≤ number s.indexMap b
  low_le : s.lowlinks node ≤ st.counter
  low : ∃ z ∈ s.stack, s.lowlinks node = number s.indexMap z ∧ ReflTransGen (Edge succ) node z
  visited : ∀ b ∈ visited, (s.indexMap b).isSome ∧
    (b ∈ s.stack → s.lowlinks node ≤ number s.indexMap b)

/-- One turn of the loop over the successors. -/
def visit (succ : String → List String) (fuel : ℕ) (node : String) (st : TarjanState)
    (successor : String) : TarjanState :=
  match st.indexMap successor with
  | none =>
    let st := strongconnect succ fuel successor st
    st.lower node (st.lowlinks successor)
  | some index => if successor ∈ st.onStack then st.lower node index else st

section
variable {succ : String → List String} {path : List String} {node : String}
  {st st' s : TarjanState}

theorem strongconnect_succ (fuel : ℕ) : strongconnect succ (fuel + 1) node st
    = ((succ node).foldl (visit succ fuel node) (st.enter node)).leave succ node := rfl

variable {above : List String} {a : String}

theorem TarjanState.Extends.number_eq (h : st.Extends st' above) (ha : (st.indexMap a).isSome) :
    number st'.indexMap a = number st.indexMap a := by
  unfold number
  rw [h.index_eq a ha]

theorem TarjanState.Extends.isSome (h : st.Extends st' above) (ha : (st.indexMap a).isSome) :
    (st'.indexMap a).isSome := by
  rw [h.index_eq a ha]
  exact ha

theorem lower_lowlinks_self (n : ℕ) :
    (st.lower node n).lowlinks node = min (st.lowlinks node) n := by
  unfold TarjanState.lower
  exact Function.update_self _ _ _

theorem lower_lowlinks_of_ne {n : ℕ} (h : a ≠ node) :
    (st.lower node n).lowlinks a = st.lowlinks a := by
  unfold TarjanState.lower
  exact Function.update_of_ne h _ _

/-! ## The loop over the successors -/

theorem scanned_enter (h : st.Invariant succ path) (hnew : st.indexMap node = none)
    (hreach : ∀ p ∈ path, ReflTransGen (Edge succ) p node) :
    Scanned succ path node st [] (st.enter node) := by
  have hexploration := h.exploration.enter hnew hreach
  have hout : ∀ a, (st.indexMap a).isSome → a ≠ node := by
    intro a ha heq
    rw [heq, hnew] at ha
    cases ha
  have hindex : (st.enter node).indexMap node = some st.counter := Function.update_self _ _ _
  have hlow : (st.enter node).lowlinks node = st.counter := Function.update_self _ _ _
  refine ⟨⟨hexploration, ?_, ?_⟩, hindex, ⟨[], ⟨rfl, ?_, ?_⟩, by simp⟩, Nat.le_of_eq hlow,
    ⟨node, List.mem_cons_self, ?_, ReflTransGen.refl⟩, by simp⟩
  · intro a
    show a ∈ insert node st.onStack ↔ a ∈ node :: st.stack
    rw [Finset.mem_insert, List.mem_cons, h.mem_onStack]
  · refine h.found.congr fun a => ?_
    show Finished (st.enter node).indexMap (node :: st.stack) a ↔ _
    unfold Finished
    rw [List.mem_cons, not_or]
    constructor
    · rintro ⟨hseen, hne, hstack⟩
      rw [show (st.enter node).indexMap a = st.indexMap a from
        Function.update_of_ne hne _ _] at hseen
      exact ⟨hseen, hstack⟩
    · rintro ⟨hseen, hstack⟩
      refine ⟨?_, hout a hseen, hstack⟩
      rw [show (st.enter node).indexMap a = st.indexMap a from
        Function.update_of_ne (hout a hseen) _ _]
      exact hseen
  · exact fun a ha => Function.update_of_ne (hout a ha) _ _
  · exact fun a ha => Function.update_of_ne (hout a ha) _ _
  · rw [hlow]
    unfold number
    rw [hindex]
    rfl

variable {visited : List String}

section
variable (h : Scanned succ path node st visited s)
include h

theorem Scanned.lower (hnew : st.indexMap node = none)
    {z : String} (hz : z ∈ s.stack) (hreach : ReflTransGen (Edge succ) node z) :
    Scanned succ path node st visited (s.lower node (number s.indexMap z)) := by
  rcases h.stack with ⟨above, hext, hcross⟩
  have hle : (s.lower node (number s.indexMap z)).lowlinks node ≤ s.lowlinks node := by
    rw [lower_lowlinks_self]
    exact Nat.min_le_left _ _
  refine ⟨⟨h.invariant.exploration, h.invariant.mem_onStack, h.invariant.found⟩, h.index_node,
    ⟨above, ⟨hext.stack_eq, hext.index_eq, fun a ha => ?_⟩, fun a ha b hb hedge =>
      hle.trans (hcross a ha b hb hedge)⟩, hle.trans h.low_le, ?_,
    fun b hb => ⟨(h.visited b hb).1, fun hstack => hle.trans ((h.visited b hb).2 hstack)⟩⟩
  · rw [lower_lowlinks_of_ne]
    · exact hext.lowlinks_eq a ha
    · intro heq
      rw [heq, hnew] at ha
      cases ha
  · rw [lower_lowlinks_self]
    rcases Nat.le_total (s.lowlinks node) (number s.indexMap z) with hmin | hmin
    · rw [min_eq_left hmin]
      exact h.low
    · rw [min_eq_right hmin]
      exact ⟨z, hz, rfl, hreach⟩

/-- A successor that has been seen. -/
theorem Scanned.seen {b : String}
    (hseen : (s.indexMap b).isSome) (hlow : b ∈ s.stack → s.lowlinks node ≤ number s.indexMap b) :
    Scanned succ path node st (visited ++ [b]) s := by
  refine ⟨h.invariant, h.index_node, h.stack, h.low_le, h.low, fun c hc => ?_⟩
  rcases List.mem_append.mp hc with hc | hc
  · exact h.visited c hc
  · rw [List.mem_singleton.mp hc]
    exact ⟨hseen, hlow⟩

/-- A call on a successor has returned, and the low link has been lowered to that of the
successor. -/
theorem Scanned.call (hnew : st.indexMap node = none)
    {b : String} (hedge : b ∈ succ node) (hunseen : s.indexMap b = none)
    (hcall : Searched succ (node :: path) b s st') :
    Scanned succ path node st (visited ++ [b]) (st'.lower node (st'.lowlinks b)) := by
  rcases h.stack with ⟨above, hext, hcross⟩
  rcases hcall.stack with ⟨above', hext', hcross'⟩
  have hnode : (s.indexMap node).isSome := by
    rw [h.index_node]
    rfl
  have hnodeStack : node ∈ s.stack := h.invariant.exploration.path_mem node List.mem_cons_self
  have hseen : ∀ a ∈ s.stack, (s.indexMap a).isSome := h.invariant.exploration.seen
  have hbelow : ∀ a ∈ st.stack, a ∈ s.stack := fun a ha => by
    rw [hext.stack_eq]
    exact List.mem_append_right _ ha
  have hnumber : number st'.indexMap node = st.counter := by
    unfold number
    rw [hext'.index_eq node hnode, h.index_node]
    rfl
  have hkept : st'.lowlinks node = s.lowlinks node := hext'.lowlinks_eq node hnode
  -- the vertices of the call are newer than the vertex that is scanned
  have hnewer : ∀ a ∈ above', st.counter < number st'.indexMap a := fun a ha => by
    have hlt := (List.pairwise_append.mp
      (hext'.stack_eq ▸ hcall.invariant.exploration.decreasing)).2.2 a ha node hnodeStack
    omega
  have hstack : st'.stack = (above' ++ above) ++ [node] ++ st.stack := by
    rw [hext'.stack_eq, hext.stack_eq]
    simp
  have hle : (st'.lower node (st'.lowlinks b)).lowlinks node ≤ s.lowlinks node := by
    rw [lower_lowlinks_self, hkept]
    exact Nat.min_le_left _ _
  have hle' : (st'.lower node (st'.lowlinks b)).lowlinks node ≤ st'.lowlinks b := by
    rw [lower_lowlinks_self]
    exact Nat.min_le_right _ _
  refine ⟨⟨hcall.invariant.exploration, hcall.invariant.mem_onStack, hcall.invariant.found⟩,
    ?_, ⟨above' ++ above, ⟨hstack, fun a ha => ?_, fun a ha => ?_⟩, ?_⟩, hle.trans h.low_le, ?_, ?_⟩
  · exact (hext'.index_eq node hnode).trans h.index_node
  · exact (hext'.index_eq a (hext.isSome ha)).trans (hext.index_eq a ha)
  · have hne : a ≠ node := by
      intro heq
      rw [heq, hnew] at ha
      cases ha
    rw [lower_lowlinks_of_ne hne, hext'.lowlinks_eq a (hext.isSome ha), hext.lowlinks_eq a ha]
  · intro a ha c hc hedge
    show _ ≤ number st'.indexMap c
    rcases List.mem_append.mp ha with ha | ha
    · exact hle'.trans (hcross' a ha c (hbelow c hc) hedge)
    · rw [hext'.number_eq (hseen c (hbelow c hc))]
      exact hle.trans (hcross a ha c hc hedge)
  · show ∃ z ∈ st'.stack, _ = number st'.indexMap z ∧ _
    have hmem : ∀ z ∈ s.stack, z ∈ st'.stack := fun z hz => by
      rw [hext'.stack_eq]
      exact List.mem_append_right above' hz
    rw [lower_lowlinks_self, hkept]
    rcases Nat.le_total (s.lowlinks node) (st'.lowlinks b) with hmin | hmin
    · rw [min_eq_left hmin]
      rcases h.low with ⟨z, hz, heq, hreach⟩
      exact ⟨z, hmem z hz, heq.trans (hext'.number_eq (hseen z hz)).symm, hreach⟩
    · rw [min_eq_right hmin]
      rcases hcall.low with hroot | ⟨z, hz, heq, hreach⟩
      · -- a successor that is a component of its own has a low link that is too large
        have hcounter := h.invariant.exploration.lt_counter node st.counter h.index_node
        have hlow := h.low_le
        omega
      · exact ⟨z, hmem z hz, heq, ReflTransGen.head hedge hreach⟩
  · intro c hc
    show (st'.indexMap c).isSome ∧ (c ∈ st'.stack → _ ≤ number st'.indexMap c)
    rcases List.mem_append.mp hc with hc | hc
    · rcases h.visited c hc with ⟨hcseen, hclow⟩
      refine ⟨hext'.isSome hcseen, fun hmem => ?_⟩
      rw [hext'.stack_eq, List.mem_append] at hmem
      rw [hext'.number_eq hcseen]
      rcases hmem with hmem | hmem
      · have hlt := hnewer c hmem
        rw [hext'.number_eq hcseen] at hlt
        exact (hle.trans h.low_le).trans (Nat.le_of_lt hlt)
      · exact hle.trans (hclow hmem)
    · rw [List.mem_singleton.mp hc]
      refine ⟨hcall.seen, fun hmem => ?_⟩
      rw [hext'.stack_eq, List.mem_append] at hmem
      rcases hmem with hmem | hmem
      · exact (hle.trans h.low_le).trans (Nat.le_of_lt (hnewer b hmem))
      · have hold := hseen b hmem
        rw [hunseen] at hold
        cases hold

end

/-! ## The end of a call -/

theorem hasCycle_top : HasCycle (Edge succ) (above ++ [node]) ↔
    1 < (above ++ [node]).length ∨ node ∈ succ node := by
  unfold HasCycle
  by_cases hlength : 1 < (above ++ [node]).length
  · simp only [hlength, true_or]
  · have hnil : above = [] := by
      rw [List.length_append, List.length_singleton] at hlength
      exact List.length_eq_zero_iff.mp (by omega)
    rw [hnil]
    simp [Edge]

theorem leave_root {above below : List String} (hstack : st.stack = above ++ node :: below)
    (hnode : node ∉ above) (hroot : some (st.lowlinks node) = st.indexMap node) :
    st.leave succ node = { st with
      stack := below
      onStack := st.onStack \ (above ++ [node]).toFinset
      sccs := if 1 < (above ++ [node]).length ∨ node ∈ succ node then st.sccs ++ [above ++ [node]]
        else st.sccs } := by
  have hall : ∀ w ∈ above, decide (w ≠ node) = true := fun w hw =>
    decide_eq_true fun heq => hnode (heq ▸ hw)
  have htake : (above ++ node :: below).takeWhile (fun w => decide (w ≠ node)) = above := by
    rw [List.takeWhile_append_of_pos hall, List.takeWhile_cons_of_neg (by simp), List.append_nil]
  have hdrop : ((above ++ node :: below).dropWhile fun w => decide (w ≠ node)).tail = below := by
    rw [List.dropWhile_append_of_pos hall, List.dropWhile_cons_of_neg (by simp), List.tail_cons]
  unfold TarjanState.leave
  rw [if_pos hroot, hstack]
  dsimp only
  rw [htake, hdrop]

/-- Once all successors have been scanned, the node is searched. -/
theorem Scanned.leave (h : Scanned succ path node st (succ node) s)
    (hst : st.Invariant succ path) (hreach : ∀ p ∈ path, ReflTransGen (Edge succ) p node) :
    Searched succ path node st (s.leave succ node) := by
  rcases h.stack with ⟨above, hext, hcross⟩
  have hstack : s.stack = above ++ node :: st.stack := by
    rw [hext.stack_eq, List.append_assoc, List.singleton_append]
  have hexploration := h.invariant.exploration
  rw [hstack] at hexploration
  have hnode : number s.indexMap node = st.counter := by
    unfold number
    rw [h.index_node]
    rfl
  have hseen : (s.indexMap node).isSome := by
    rw [h.index_node]
    rfl
  have hsucc : ∀ b, Edge succ node b → (s.indexMap b).isSome := fun b hb => (h.visited b hb).1
  -- no edge out of the top of the stack undercuts the low link
  have htop : ∀ a ∈ above ++ [node], ∀ b ∈ st.stack, Edge succ a b →
      s.lowlinks node ≤ number s.indexMap b := by
    intro a ha b hb hedge
    rcases List.mem_append.mp ha with ha | ha
    · exact hcross a ha b hb hedge
    · rw [List.mem_singleton.mp ha] at hedge
      refine (h.visited b hedge).2 ?_
      rw [hstack]
      exact List.mem_append_right above (List.mem_cons_of_mem node hb)
  by_cases hroot : some (s.lowlinks node) = s.indexMap node
  · have hlow : s.lowlinks node = st.counter := by
      rw [h.index_node] at hroot
      exact Option.some.inj hroot
    have hnone : ∀ a ∈ above ++ [node], ∀ b ∈ st.stack, ¬ Edge succ a b := by
      intro a ha b hb hedge
      have hle := htop a ha b hb hedge
      have hlt := hexploration.number_lt_of_below hb
      omega
    have hout : node ∉ above := fun hmem =>
      (List.nodup_append.mp hexploration.nodup).2.2 node hmem node List.mem_cons_self rfl
    have hcomponent := hexploration.isComponent hst.exploration.path_mem hsucc hnone hreach
    have hpop := hexploration.pop hst.exploration.path_mem hsucc hnone
    have hfinished := hexploration.finished_pop
    have hfound := h.invariant.found
    rw [hstack] at hfound
    rw [leave_root hstack hout hroot]
    refine ⟨⟨hpop, fun a => ?_, ?_⟩, hseen, ⟨[], ⟨rfl, hext.index_eq, hext.lowlinks_eq⟩, by simp⟩,
      Or.inl (Nat.le_of_eq hlow.symm)⟩
    · show a ∈ s.onStack \ (above ++ [node]).toFinset ↔ a ∈ st.stack
      rw [Finset.mem_sdiff, h.invariant.mem_onStack, List.mem_toFinset, hstack]
      have hdisjoint := hexploration.nodup
      rw [← List.singleton_append, ← List.append_assoc, List.nodup_append] at hdisjoint
      rw [← List.singleton_append, ← List.append_assoc, List.mem_append]
      constructor
      · rintro ⟨hmem, hnot⟩
        exact hmem.resolve_left hnot
      · exact fun hmem => ⟨Or.inr hmem, fun ha => hdisjoint.2.2 a ha a hmem rfl⟩
    · show Found (Edge succ) (Finished s.indexMap st.stack) (if _ then _ else _)
      split_ifs with hcycle
      · refine hfound.add hcomponent (hasCycle_top.mpr hcycle) (fun a ha hdone => ?_) hfinished
        exact hdone.2 (Exploration.top_mem ha)
      · exact hfound.skip hcomponent (fun hhas => hcycle (hasCycle_top.mp hhas)) hfinished
  · have hlt : s.lowlinks node < st.counter := by
      refine Nat.lt_of_le_of_ne h.low_le fun heq => hroot ?_
      rw [heq, h.index_node]
    have hleave : s.leave succ node = s := by
      unfold TarjanState.leave
      rw [if_neg hroot]
    rcases h.low with ⟨z, hz, heq, hzreach⟩
    have hzbelow : z ∈ st.stack := by
      rw [hstack, ← List.singleton_append, ← List.append_assoc, List.mem_append] at hz
      refine hz.resolve_left fun habove => ?_
      have hle := hexploration.le_number_of_top habove
      omega
    rw [hleave]
    refine ⟨⟨?_, h.invariant.mem_onStack, h.invariant.found⟩, hseen,
      ⟨above ++ [node], hext, htop⟩, Or.inr ⟨z, hzbelow, heq, hzreach⟩⟩
    refine h.invariant.exploration.keep (fun p hp => ?_) hsucc hz (by omega) hzreach
    exact h.invariant.exploration.path_mem p (List.mem_cons_of_mem node hp)

/-! ## The search -/

def unseen (names : Finset String) (st : TarjanState) : Finset String :=
  names.filter fun a => st.indexMap a = none

theorem Scanned.unseen_lt {names : Finset String} (h : Scanned succ path node st visited s)
    (hnew : st.indexMap node = none) (hnode : node ∈ names) :
    (unseen names s).card < (unseen names st).card := by
  rcases h.stack with ⟨above, hext, -⟩
  apply Finset.card_lt_card
  rw [Finset.ssubset_iff_of_subset]
  · refine ⟨node, Finset.mem_filter.mpr ⟨hnode, hnew⟩, fun hmem => ?_⟩
    have hnone := (Finset.mem_filter.mp hmem).2
    rw [h.index_node] at hnone
    cases hnone
  · intro a ha
    rcases Finset.mem_filter.mp ha with ⟨hname, hnone⟩
    refine Finset.mem_filter.mpr ⟨hname, ?_⟩
    by_contra hsome
    have hseen := hext.isSome (Option.isSome_iff_ne_none.mpr hsome)
    rw [hnone] at hseen
    cases hseen

section
variable {names : Finset String} (hnames : ∀ a b, b ∈ succ a → b ∈ names)

variable {fuel : ℕ}

include hnames in
/-- A call of `strongconnect` searches the node, with enough fuel. -/
theorem strongconnect_searched (h : st.Invariant succ path) (hnew : st.indexMap node = none)
    (hreach : ∀ p ∈ path, ReflTransGen (Edge succ) p node) (hnode : node ∈ names)
    (hfuel : (unseen names st).card ≤ fuel) :
    Searched succ path node st (strongconnect succ fuel node st) := by
  induction fuel generalizing path node st with
  | zero =>
    have hmem : node ∈ unseen names st := Finset.mem_filter.mpr ⟨hnode, hnew⟩
    have hpos := Finset.card_pos.mpr ⟨node, hmem⟩
    omega
  | succ fuel ih =>
    -- one turn of the loop
    have hvisit : ∀ visited s b, Scanned succ path node st visited s → b ∈ succ node →
        Scanned succ path node st (visited ++ [b]) (visit succ fuel node s b) := by
      intro visited s b hscanned hedge
      unfold visit
      cases hindex : s.indexMap b with
      | none =>
        refine hscanned.call hnew hedge hindex ?_
        refine ih hscanned.invariant hindex (fun p hp => ?_) (hnames node b hedge) ?_
        · rcases List.mem_cons.mp hp with rfl | hp
          · exact ReflTransGen.single hedge
          · exact (hreach p hp).tail hedge
        · have hlt := hscanned.unseen_lt hnew hnode
          omega
      | some index =>
        have hseen : (s.indexMap b).isSome := by
          rw [hindex]
          rfl
        have hnumber : index = number s.indexMap b := by
          unfold number
          rw [hindex]
          rfl
        dsimp only
        by_cases hstack : b ∈ s.onStack
        · rw [if_pos hstack, hnumber]
          rw [hscanned.invariant.mem_onStack] at hstack
          refine (hscanned.lower hnew hstack (ReflTransGen.single hedge)).seen hseen fun _ => ?_
          rw [lower_lowlinks_self]
          exact Nat.min_le_right _ _
        · rw [if_neg hstack]
          rw [hscanned.invariant.mem_onStack] at hstack
          exact hscanned.seen hseen fun hmem => absurd hmem hstack
    have hloop : ∀ rest visited s, Scanned succ path node st visited s →
        (∀ b ∈ rest, b ∈ succ node) →
          Scanned succ path node st (visited ++ rest) (rest.foldl (visit succ fuel node) s) := by
      intro rest
      induction rest with
      | nil =>
        intro visited s hscanned _
        rw [List.append_nil]
        exact hscanned
      | cons b rest ihrest =>
        intro visited s hscanned hedges
        rw [List.forall_mem_cons] at hedges
        rw [List.foldl_cons, ← List.singleton_append, ← List.append_assoc]
        exact ihrest _ _ (hvisit visited s b hscanned hedges.1) hedges.2
    have hscanned := hloop (succ node) [] (st.enter node) (scanned_enter h hnew hreach)
      fun b hb => hb
    rw [List.nil_append] at hscanned
    rw [strongconnect_succ]
    exact hscanned.leave h hreach

/-- The loop over the states, from every state that has not been seen. -/
def search (succ : String → List String) (fuel : ℕ) (st : TarjanState) (state : String) :
    TarjanState :=
  match st.indexMap state with
  | none => strongconnect succ fuel state st
  | some _ => st

include hnames in
theorem search_invariant (hfuel : names.card ≤ fuel) (h : st.Invariant succ []) {state : String}
    (hstate : state ∈ names) : (search succ fuel st state).Invariant succ [] ∧
      ((search succ fuel st state).indexMap state).isSome ∧
      ∀ a, (st.indexMap a).isSome → ((search succ fuel st state).indexMap a).isSome := by
  unfold search
  cases hindex : st.indexMap state with
  | none =>
    have hcard := Finset.card_le_card (Finset.filter_subset (fun a => st.indexMap a = none) names)
    have hsearched := strongconnect_searched hnames h hindex (by simp) hstate
      (hcard.trans hfuel)
    rcases hsearched.stack with ⟨above, hext, -⟩
    exact ⟨hsearched.invariant, hsearched.seen, fun a ha => hext.isSome ha⟩
  | some index =>
    refine ⟨h, ?_, fun a ha => ha⟩
    dsimp only
    rw [hindex]
    rfl

include hnames in
theorem foldl_search (hfuel : names.card ≤ fuel) (states : List String) (h : st.Invariant succ [])
    (hstates : ∀ a ∈ states, a ∈ names) : (states.foldl (search succ fuel) st).Invariant succ [] ∧
      (∀ a ∈ states, ((states.foldl (search succ fuel) st).indexMap a).isSome) ∧
      ∀ a, (st.indexMap a).isSome →
        ((states.foldl (search succ fuel) st).indexMap a).isSome := by
  induction states generalizing st with
  | nil => exact ⟨h, by simp, fun a ha => ha⟩
  | cons state states ih =>
    rw [List.forall_mem_cons] at hstates
    rcases search_invariant hnames hfuel h hstates.1 with ⟨hinvariant, hseen, hkept⟩
    rcases ih hinvariant hstates.2 with ⟨hinvariant', hseen', hkept'⟩
    rw [List.foldl_cons]
    exact ⟨hinvariant', List.forall_mem_cons.mpr ⟨hkept' state hseen, hseen'⟩,
      fun a ha => hkept' a (hkept a ha)⟩

/-- The variables before the search. -/
def TarjanState.start : TarjanState where
  counter := 0
  stack := []
  lowlinks := fun _ => 0
  indexMap := fun _ => none
  onStack := ∅
  sccs := []

theorem invariant_start : TarjanState.start.Invariant succ [] where
  exploration := Exploration.start (Edge succ)
  mem_onStack := by simp [TarjanState.start]
  found := ⟨by simp [TarjanState.start], by simp [TarjanState.start], by simp [TarjanState.start],
    fun a ha => (nomatch ha.1), List.Pairwise.nil⟩

include hnames in
theorem foldl_search_found (hfuel : names.card ≤ fuel) {states : List String}
    (hstates : ∀ a, a ∈ states ↔ a ∈ names) :
    ∃ done, Found (Edge succ) done (states.foldl (search succ fuel) TarjanState.start).sccs ∧
      ∀ a ∈ names, done a := by
  rcases foldl_search hnames hfuel states invariant_start (fun a ha => (hstates a).mp ha) with
    ⟨hinvariant, hseen, -⟩
  refine ⟨_, hinvariant.found, fun a ha => ⟨hseen a ((hstates a).mpr ha), ?_⟩⟩
  rw [hinvariant.exploration.stack_eq_nil]
  exact List.not_mem_nil

end

end

/-! ## The search for an exit -/

variable {fuel : ℕ} {queue : List String}

variable {succ : String → List String}

theorem subset_popLoop {seen : Finset String} :
    seen ⊆ popLoop succ fuel seen queue := by
  induction fuel generalizing seen queue with
  | zero => exact Finset.Subset.refl seen
  | succ fuel ih =>
    cases queue with
    | nil => exact Finset.Subset.refl seen
    | cons a queue =>
      rw [popLoop]
      split_ifs
      · exact ih
      · exact (Finset.subset_insert a seen).trans ih

/-- The search for an exit finds the terminal states that can be reached. -/
theorem canExit_eq_true_iff {terminal : Finset String}
    {visited : Finset String} (h : ∀ a ∈ visited, a ∉ terminal) :
    canExit succ terminal fuel visited queue = true ↔
      ∃ t ∈ terminal, t ∈ popLoop succ fuel visited queue := by
  have hnone : ¬ ∃ t ∈ terminal, t ∈ visited := by
    rintro ⟨t, ht, hvisited⟩
    exact h t hvisited ht
  induction fuel generalizing visited queue with
  | zero => simp only [canExit, popLoop, hnone, Bool.false_eq_true]
  | succ fuel ih =>
    cases queue with
    | nil => simp only [canExit, popLoop, hnone, Bool.false_eq_true]
    | cons a queue =>
      rw [canExit, popLoop]
      by_cases hvisited : a ∈ visited
      · rw [if_pos hvisited, if_pos hvisited]
        exact ih h hnone
      · rw [if_neg hvisited, if_neg hvisited]
        by_cases hterminal : a ∈ terminal
        · rw [if_pos hterminal]
          exact iff_of_true rfl
            ⟨a, hterminal, subset_popLoop (Finset.mem_insert_self a visited)⟩
        · have hinsert : ∀ b ∈ insert a visited, b ∉ terminal := by
            intro b hb
            rcases Finset.mem_insert.mp hb with rfl | hb
            · exact hterminal
            · exact h b hb
          rw [if_neg hterminal]
          apply ih hinsert
          rintro ⟨t, ht, hmem⟩
          exact hinsert t hmem ht

theorem canExit_iff {sources terminal : Finset String} (hsources : ∀ a b, b ∈ succ a → a ∈ sources)
    (hfuel : queue.length + ∑ a ∈ sources, (succ a).length ≤ fuel) :
    canExit succ terminal fuel ∅ queue = true ↔
      ∃ a ∈ queue, ∃ t ∈ terminal, ReflTransGen (Edge succ) a t := by
  rw [canExit_eq_true_iff (by simp)]
  have hmem : ∀ x, x ∈ popLoop succ fuel ∅ queue ↔
      x ∈ (∅ : Finset String) ∨ ∃ q ∈ queue, ReflTransGen (Edge succ) q x :=
    mem_popLoop_iff hsources (by simp) (by rw [Finset.sdiff_empty]; exact hfuel)
  constructor
  · rintro ⟨t, ht, hpop⟩
    rcases (hmem t).mp hpop with hempty | ⟨a, ha, hreach⟩
    · cases hempty
    · exact ⟨a, ha, t, ht, hreach⟩
  · rintro ⟨a, ha, t, ht, hreach⟩
    exact ⟨t, ht, (hmem t).mpr (Or.inr ⟨a, ha, hreach⟩)⟩

/-! ## The result -/

section
variable {fsm : ModelFSMSubcontract}

theorem edge_eq_leads (hmem : ∀ a b, b ∈ succ a ↔ a ∈ fsm.stateNames ∧ b ∈ targets fsm a) :
    Edge succ = Leads fsm := by
  funext a b
  exact propext ((hmem a b).trans (and_congr_right fun _ => mem_targets))

theorem declared_of_cycle {a : String} (h : TransGen (Leads fsm) a a) : a ∈ fsm.stateNames := by
  rcases TransGen.head'_iff.mp h with ⟨b, hab, -⟩
  exact hab.1

/-- The analyser finds the components with a cycle that reach no listed terminal state. -/
theorem findCyclesWithoutExit_spec (σ : SetOrder String) (h : ValidSubcontract fsm) :
    ∃ cycles, findCyclesWithoutExit σ fsm = .ok cycles ∧ cycles.Nodup ∧
      ∀ l, l ∈ cycles ↔ l.Pairwise (· ≤ ·) ∧ IsComponent (Leads fsm) l ∧
        HasCycle (Leads fsm) l ∧ ¬ Exits fsm fsm.terminalStates.toFinset l := by
  rcases adjacency_ok h with ⟨succ, hsucc, hmem⟩
  have hedge := edge_eq_leads hmem
  have hsources : ∀ a b, b ∈ succ a → a ∈ fsm.stateNames.toFinset := fun a b hb =>
    List.mem_toFinset.mpr ((hmem a b).mp hb).1
  have hnames : ∀ a b, b ∈ succ a → b ∈ fsm.stateNames.toFinset := by
    intro a b hb
    rcases mem_targets.mp ((hmem a b).mp hb).2 with ⟨t, ht, -, rfl⟩
    exact List.mem_toFinset.mpr (h.to_mem t ht)
  have hexit : ∀ scc : List String, canExit succ fsm.terminalStates.toFinset
      (scc.length + edgeCount fsm succ) ∅ scc = true ↔
        Exits fsm fsm.terminalStates.toFinset scc := by
    intro scc
    unfold edgeCount
    rw [canExit_iff hsources (Nat.le_refl _), hedge]
    rfl
  have hcycles : findCyclesWithoutExit σ fsm = .ok ((((σ.iter fsm.stateNames.toFinset).foldl
      (search succ (fsm.stateNames.toFinset.card + 1)) TarjanState.start).sccs.filter
        fun (scc : List String) => ¬ canExit succ fsm.terminalStates.toFinset
          (scc.length + edgeCount fsm succ) ∅ scc).map
        fun (scc : List String) => scc.insertionSort (· ≤ ·)) := by
    unfold findCyclesWithoutExit
    rw [hsucc]
    rfl
  rcases foldl_search_found hnames (Nat.le_succ _) (σ.mem_iter fsm.stateNames.toFinset) with
    ⟨done, hfound, hdone⟩
  rw [hedge] at hfound
  rw [hcycles]
  generalize ((σ.iter fsm.stateNames.toFinset).foldl
    (search succ (fsm.stateNames.toFinset.card + 1)) TarjanState.start).sccs = sccs at hfound ⊢
  have hsort : ∀ l : List String, (l.insertionSort (· ≤ ·)).Perm l := List.perm_insertionSort _
  refine ⟨_, rfl, ?_, fun l => ⟨fun hl => ?_, fun hl => ?_⟩⟩
  · -- sorted lists with a vertex in common come from one component
    rw [List.Nodup, List.pairwise_map]
    refine (hfound.disjoint.filter _).imp_of_mem fun {k k'} hk _ hdisjoint heq => ?_
    have hk := (List.mem_filter.mp hk).1
    rcases List.exists_mem_of_ne_nil k (hfound.isComponent k hk).nonempty with ⟨a, ha⟩
    refine hdisjoint ha ?_
    rw [← (hsort k').mem_iff, ← heq, (hsort k).mem_iff]
    exact ha
  · rcases List.mem_map.mp hl with ⟨scc, hscc, rfl⟩
    rcases List.mem_filter.mp hscc with ⟨hscc, hexits⟩
    have hnot := of_decide_eq_true hexits
    rw [hexit] at hnot
    refine ⟨List.pairwise_insertionSort _ _, (hfound.isComponent scc hscc).perm (hsort scc),
      (hfound.hasCycle scc hscc).perm (hsort scc), fun ⟨a, ha, hreach⟩ => hnot ⟨a, ?_, hreach⟩⟩
    exact (hsort scc).mem_iff.mp ha
  · rcases hl with ⟨hsorted, hcomponent, hcycle, hnot⟩
    have hdeclared : ∀ a ∈ l, done a := fun a ha => hdone a (List.mem_toFinset.mpr
      (declared_of_cycle ((hcomponent.hasCycle_iff ha).mp hcycle)))
    rcases hfound.exists_perm hdeclared hcomponent hcycle with ⟨scc, hscc, hperm⟩
    refine List.mem_map.mpr ⟨scc, List.mem_filter.mpr ⟨hscc, decide_eq_true ?_⟩, ?_⟩
    · rw [hexit]
      exact fun ⟨a, ha, hreach⟩ => hnot ⟨a, hperm.mem_iff.mp ha, hreach⟩
    · exact ((hsort scc).trans hperm).eq_of_pairwise (fun _ _ _ _ => le_antisymm)
        (List.pairwise_insertionSort _ _) hsorted

theorem exists_sorted_component {a : String} (h : TransGen (Leads fsm) a a) :
    ∃ l : List String, l.Pairwise (· ≤ ·) ∧ IsComponent (Leads fsm) l ∧
      HasCycle (Leads fsm) l ∧ a ∈ l := by
  have hvertices : ∀ b, Mutual (Leads fsm) a b → b ∈ fsm.stateNames.toFinset := by
    intro b hb
    rw [List.mem_toFinset]
    rcases ReflTransGen.cases_head hb.2 with heq | ⟨c, hbc, -⟩
    · rw [heq]
      exact declared_of_cycle h
    · exact hbc.1
  rcases exists_isComponent hvertices with ⟨l, hl, ha⟩
  have hperm : (l.insertionSort (· ≤ ·)).Perm l := List.perm_insertionSort _ l
  exact ⟨l.insertionSort (· ≤ ·), List.pairwise_insertionSort _ l, hl.perm hperm,
    ((hl.hasCycle_iff ha).mpr h).perm hperm, hperm.mem_iff.mpr ha⟩

theorem listed_subset (fsm : ModelFSMSubcontract) :
    fsm.terminalStates.toFinset ⊆ fsm.terminalStateNames := by
  intro s hs
  unfold ModelFSMSubcontract.terminalStateNames
  rw [List.mem_toFinset] at hs ⊢
  exact List.mem_append_right _ hs

/-- The analysis of an accepted machine is exact iff every state on a cycle that reaches a
terminal state reaches a listed one. -/
theorem exactCycles_iff {i : Interpreter} (σ : SetOrder String) (h : fsm.Accepted i) :
    ∃ cycles, findCyclesWithoutExit σ fsm = .ok cycles ∧
      (ExactCycles fsm cycles ↔ ∀ a, TransGen (Leads fsm) a a →
        (∃ t ∈ fsm.terminalStateNames, ReflTransGen (Leads fsm) a t) →
          ∃ t ∈ fsm.terminalStates, ReflTransGen (Leads fsm) a t) := by
  rcases findCyclesWithoutExit_spec σ h.valid with ⟨cycles, hcycles, hnodup, hmem⟩
  refine ⟨cycles, hcycles, fun hexact a hcycle hterminal => ?_, fun hlisted => ?_⟩
  · by_contra hnone
    rcases exists_sorted_component hcycle with ⟨l, hsorted, hcomponent, hhas, ha⟩
    have hl : l ∈ cycles := by
      refine (hmem l).mpr ⟨hsorted, hcomponent, hhas, ?_⟩
      rintro ⟨b, hb, t, ht, hreach⟩
      have hab := ((hcomponent.mem_iff a ha b).mp hb).1
      exact hnone ⟨t, List.mem_toFinset.mp ht, hab.trans hreach⟩
    rcases hterminal with ⟨t, ht, hreach⟩
    exact ((hexact.mem_iff l).mp hl).2.2.2 ⟨a, ha, t, ht, hreach⟩
  · refine ⟨hnodup, fun l => (hmem l).trans ?_⟩
    refine and_congr_right fun _ => and_congr_right fun hcomponent =>
      and_congr_right fun hhas => not_congr ⟨?_, ?_⟩
    · rintro ⟨a, ha, t, ht, hreach⟩
      exact ⟨a, ha, t, listed_subset fsm ht, hreach⟩
    · rintro ⟨a, ha, hreaches⟩
      have hcycle := (hcomponent.hasCycle_iff ha).mp hhas
      rcases hlisted a hcycle hreaches with ⟨t, ht, hreach⟩
      exact ⟨a, ha, t, List.mem_toFinset.mpr ht, hreach⟩

end

def flaggedFsm : ModelFSMSubcontract :=
  { numericGuardFsm with
    states := numericGuardFsm.states ++ [
      { stateName := "done", isTerminal := true, isRecoverable := false, entryActions := [],
        exitActions := [], requiredData := [] }]
    transitions := numericGuardFsm.transitions ++ [
      { transitionName := "pause", fromState := "busy", toState := "idle", trigger := "pause",
        priority := 1, actions := [], conditions := [] },
      { transitionName := "finish", fromState := "busy", toState := "done", trigger := "finish",
        priority := 1, actions := [], conditions := [] }] }

theorem exactCycles_iff_islandFsm :
    ∃ cycles, findCyclesWithoutExit (SetOrder.ascending String) islandFsm = .ok cycles ∧
      (ExactCycles islandFsm cycles ↔ ∀ a, TransGen (Leads islandFsm) a a →
        (∃ t ∈ islandFsm.terminalStateNames, ReflTransGen (Leads islandFsm) a t) →
          ∃ t ∈ islandFsm.terminalStates, ReflTransGen (Leads islandFsm) a t) :=
  exactCycles_iff (i := plainInterpreter) (SetOrder.ascending String) (by decide +kernel)

/-- The states `idle` and `busy` are reported, although `busy` leads to `done`. -/
theorem flaggedFsm_not_exact :
    flaggedFsm.Accepted plainInterpreter ∧
      ∃ cycles, findCyclesWithoutExit (SetOrder.ascending String) flaggedFsm = .ok cycles ∧
        ¬ ExactCycles flaggedFsm cycles := by
  refine ⟨by decide +kernel, [["busy", "idle"]], by decide +kernel, fun hexact => ?_⟩
  have hexits := ((hexact.mem_iff ["busy", "idle"]).mp List.mem_cons_self).2.2.2
  have hleads : Leads flaggedFsm "busy" "done" :=
    ⟨by decide +kernel, _, List.mem_cons_of_mem _ (List.mem_cons_of_mem _ List.mem_cons_self),
      Or.inr rfl, rfl⟩
  exact hexits ⟨"busy", List.mem_cons_self, "done", by decide +kernel, ReflTransGen.single hleads⟩

end OmnibaseCore.Fsm
