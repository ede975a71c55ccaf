import OmnibaseCore.Graph.Basic

/-!
# Depth-first cycle search

The recursive search with a visited set and a recursion stack, bounded by the number of
calls it may make. What a caller keeps besides the two sets (the current path, the cycle
found) is abstract: a `Bookkeeping` says how it changes when the search enters a vertex,
leaves it, and meets a vertex of the recursion stack.

The search is correct for every bookkeeping. `visit_spec` and `neighborLoop_spec` say what
one call does, `roots_spec` what the whole search does: it hits the bound only if there are
more vertices than that; if it answers no, every vertex it visited is below no infinite
descent; if it answers yes, the recursion stack held a cycle, which the bookkeeping has
seen.
-/

namespace FiniteGraph

open Relation

variable {α σ : Type*}

structure Bookkeeping (α σ : Type*) where
  /-- a search from a new root begins -/
  root : σ → σ
  /-- the search enters a vertex -/
  enter : α → σ → σ
  /-- the search leaves a vertex, having found no cycle through it -/
  leave : α → σ → σ
  /-- the search meets a vertex of the recursion stack -/
  found : α → σ → σ

/-- The variables of a depth-first search. -/
structure DfsState (α σ : Type*) where
  visited : Finset α
  recStack : Finset α
  iterations : ℕ
  extra : σ

variable [DecidableEq α]

/-- The loop over the neighbours of a vertex, `visit` being the recursive call. -/
def neighborLoop (bk : Bookkeeping α σ)
    (visit : α → DfsState α σ → Except α (Bool × DfsState α σ)) :
    List α → DfsState α σ → Except α (Bool × DfsState α σ)
  | [], st => .ok (false, st)
  | neighbor :: rest, st =>
    if neighbor ∉ st.visited then
      match visit neighbor st with
      | .error last => .error last
      | .ok (true, st) => .ok (true, st)
      | .ok (false, st) => neighborLoop bk visit rest st
    else if neighbor ∈ st.recStack then
      .ok (true, { st with extra := bk.found neighbor st.extra })
    else
      neighborLoop bk visit rest st

/-- One call of the search at `node`. It fails with the vertex at which the number of calls
exceeds `limit`; the fuel bounds the depth of the recursion, which that number bounds too. -/
def visit (bk : Bookkeeping α σ) (limit : ℕ) (succ : α → List α) :
    ℕ → α → DfsState α σ → Except α (Bool × DfsState α σ)
  | 0, node, _ => .error node
  | fuel + 1, node, st =>
    if limit < st.iterations + 1 then
      .error node
    else
      let st' : DfsState α σ :=
        { visited := insert node st.visited
          recStack := insert node st.recStack
          iterations := st.iterations + 1
          extra := bk.enter node st.extra }
      match neighborLoop bk (visit bk limit succ fuel) (succ node) st' with
      | .error last => .error last
      | .ok (true, st) => .ok (true, st)
      | .ok (false, st) =>
        .ok (false, { st with
          recStack := st.recStack.erase node
          extra := bk.leave node st.extra })

def roots (bk : Bookkeeping α σ) (limit : ℕ) (succ : α → List α) :
    List α → DfsState α σ → Except α (Bool × DfsState α σ)
  | [], st => .ok (false, st)
  | node :: rest, st =>
    if node ∉ st.visited then
      match visit bk limit succ limit node { st with extra := bk.root st.extra } with
      | .error last => .error last
      | .ok (true, st) => .ok (true, st)
      | .ok (false, st) => roots bk limit succ rest st
    else
      roots bk limit succ rest st

/-! ## The invariant -/

section
variable (bk : Bookkeeping α σ) (succ : α → List α) (nodes : Finset α)

/-- A bookkeeping follows the path of the search, from the root to the current vertex, when
`R path extra` is kept by entering and leaving. -/
structure Follows (R : List α → σ → Prop) : Prop where
  root : ∀ extra, R [] (bk.root extra)
  enter : ∀ path node extra, R path extra → R (path ++ [node]) (bk.enter node extra)
  leave : ∀ path node extra, R (path ++ [node]) extra → R path (bk.leave node extra)

/-- The state of the search between two calls, `path` being the recursion stack in order. -/
structure DfsInv (R : List α → σ → Prop) (path : List α) (st : DfsState α σ) : Prop where
  visited_subset : st.visited ⊆ nodes
  stack_eq : st.recStack = path.toFinset
  stack_visited : st.recStack ⊆ st.visited
  path_nodup : path.Nodup
  path_chain : path.IsChain (Edge succ)
  iterations_eq : st.iterations = st.visited.card
  finished_acc : ∀ a ∈ st.visited, a ∉ path → Acc (fun b a => Edge succ a b) a
  follows : R path st.extra

/-- The bookkeeping has seen a path of the graph whose last vertex has an edge back to a
vertex of the path. -/
def FoundCycle (R : List α → σ → Prop) (extra : σ) : Prop :=
  ∃ path last back seen, path.IsChain (Edge succ) ∧ path.Nodup ∧ path.getLast? = some last ∧
    back ∈ path ∧ Edge succ last back ∧ R path seen ∧ extra = bk.found back seen

/-- What a call made at the state `st` with the stack `path` may return: a failure, if there
are more vertices than `limit`; a cycle; or a state that continues `st`, extended by what the
call was for. -/
def Outcome (limit : ℕ) (R : List α → σ → Prop) (path : List α) (st : DfsState α σ)
    (done : DfsState α σ → Prop) : Except α (Bool × DfsState α σ) → Prop
  | .error _ => limit < nodes.card
  | .ok (true, st') => FoundCycle bk succ R st'.extra
  | .ok (false, st') =>
    DfsInv succ nodes R path st' ∧ st.visited ⊆ st'.visited ∧ done st'

end

section
variable {bk : Bookkeeping α σ} {succ : α → List α} {nodes : Finset α}
  {R : List α → σ → Prop} {path : List α} {node : α} {st : DfsState α σ}

theorem DfsInv.not_mem_path (h : DfsInv succ nodes R path st) (hnode : node ∉ st.visited) :
    node ∉ path := by
  intro hpath
  refine hnode (h.stack_visited ?_)
  rw [h.stack_eq]
  exact List.mem_toFinset.mpr hpath

theorem DfsInv.enter (hR : Follows bk R) (h : DfsInv succ nodes R path st)
    (hnode : node ∈ nodes) (hnew : node ∉ st.visited)
    (hedge : ∀ last, path.getLast? = some last → Edge succ last node) :
    DfsInv succ nodes R (path ++ [node])
      { visited := insert node st.visited
        recStack := insert node st.recStack
        iterations := st.iterations + 1
        extra := bk.enter node st.extra } where
  visited_subset := Finset.insert_subset hnode h.visited_subset
  stack_eq := by
    ext a
    simp only [h.stack_eq, Finset.mem_insert, List.mem_toFinset, List.mem_append,
      List.mem_singleton, or_comm]
  stack_visited := Finset.insert_subset_insert node h.stack_visited
  path_nodup := h.path_nodup.concat (h.not_mem_path hnew) |> (by simpa using ·)
  path_chain := by
    rw [List.isChain_append]
    refine ⟨h.path_chain, List.isChain_singleton node, fun last hlast b hb => ?_⟩
    obtain rfl : node = b := by simpa using hb
    exact hedge last hlast
  iterations_eq := by rw [Finset.card_insert_of_notMem hnew, h.iterations_eq]
  finished_acc := by
    intro a ha hpath
    rw [List.mem_append, not_or, List.mem_singleton] at hpath
    exact h.finished_acc a (Finset.mem_of_mem_insert_of_ne ha hpath.2) hpath.1
  follows := hR.enter path node st.extra h.follows

/-- Leaving a vertex all of whose successors are finished finishes it. -/
theorem DfsInv.leave (hR : Follows bk R) (h : DfsInv succ nodes R (path ++ [node]) st)
    (hdone : ∀ b ∈ succ node, b ∈ st.visited ∧ b ∉ path ++ [node]) :
    DfsInv succ nodes R path
      { st with recStack := st.recStack.erase node, extra := bk.leave node st.extra } where
  visited_subset := h.visited_subset
  stack_eq := by
    have hnode : node ∉ path := by
      have := h.path_nodup
      rw [List.nodup_append] at this
      exact fun hpath => this.2.2 node hpath node (List.mem_singleton_self node) rfl
    rw [h.stack_eq]
    ext a
    simp only [Finset.mem_erase, List.mem_toFinset, List.mem_append, List.mem_singleton]
    constructor
    · rintro ⟨hne, hpath | rfl⟩
      · exact hpath
      · exact absurd rfl hne
    · intro hpath
      exact ⟨fun heq => hnode (heq ▸ hpath), Or.inl hpath⟩
  stack_visited := (Finset.erase_subset node st.recStack).trans h.stack_visited
  path_nodup := (List.nodup_append.mp h.path_nodup).1
  path_chain := (List.isChain_append.mp h.path_chain).1
  iterations_eq := h.iterations_eq
  finished_acc := by
    intro a ha hpath
    by_cases heq : a = node
    · subst heq
      refine Acc.intro a fun b hb => ?_
      exact h.finished_acc b (hdone b hb).1 (hdone b hb).2
    · refine h.finished_acc a ha ?_
      rw [List.mem_append, not_or, List.mem_singleton]
      exact ⟨hpath, heq⟩
  follows := hR.leave path node st.extra h.follows

/-! ## What a call does -/

/-- The loop over a vertex's neighbours, given what each recursive call does. -/
theorem neighborLoop_spec {call : α → DfsState α σ → Except α (Bool × DfsState α σ)}
    {limit : ℕ} (room : DfsState α σ → Prop)
    (hroom : ∀ st st' : DfsState α σ, room st → st.visited ⊆ st'.visited → room st')
    (hlast : path.getLast? = some node)
    (hcall : ∀ b st, Edge succ node b → b ∉ st.visited → DfsInv succ nodes R path st →
      room st → Outcome bk succ nodes limit R path st (fun st' => b ∈ st'.visited) (call b st)) :
    ∀ (ns : List α), (∀ b ∈ ns, Edge succ node b) →
      ∀ st, DfsInv succ nodes R path st → room st →
        Outcome bk succ nodes limit R path st (fun st' => ∀ b ∈ ns, b ∈ st'.visited ∧ b ∉ path)
          (neighborLoop bk call ns st) := by
  intro ns
  induction ns with
  | nil =>
    intro _ st hst _
    exact ⟨hst, Finset.Subset.refl _, by simp⟩
  | cons b ns ih =>
    intro hns st hst hr
    have hb : Edge succ node b := hns b List.mem_cons_self
    have hns' : ∀ b ∈ ns, Edge succ node b := fun b hb => hns b (List.mem_cons_of_mem _ hb)
    rw [neighborLoop]
    by_cases hvis : b ∈ st.visited
    · rw [if_neg (not_not.mpr hvis)]
      by_cases hstack : b ∈ st.recStack
      · rw [if_pos hstack]
        have hpath : b ∈ path := by
          rw [hst.stack_eq] at hstack
          exact List.mem_toFinset.mp hstack
        exact ⟨path, node, b, st.extra, hst.path_chain, hst.path_nodup, hlast, hpath, hb,
          hst.follows, rfl⟩
      · rw [if_neg hstack]
        have hpath : b ∉ path := by
          rw [hst.stack_eq] at hstack
          exact fun h => hstack (List.mem_toFinset.mpr h)
        have hrec := ih hns' st hst hr
        revert hrec
        cases neighborLoop bk call ns st with
        | error last => exact id
        | ok r =>
          obtain ⟨_ | _, st'⟩ := r
          · rintro ⟨hst', hsub, hdone⟩
            refine ⟨hst', hsub, fun c hc => ?_⟩
            rcases List.mem_cons.mp hc with rfl | hc
            · exact ⟨hsub hvis, hpath⟩
            · exact hdone c hc
          · exact id
    · rw [if_pos hvis]
      have hspec := hcall b st hb hvis hst hr
      have hpath : b ∉ path := hst.not_mem_path hvis
      revert hspec
      cases call b st with
      | error last => exact id
      | ok r =>
        obtain ⟨_ | _, st₁⟩ := r
        · rintro ⟨hst₁, hsub₁, hb₁⟩
          have hrec := ih hns' st₁ hst₁ (hroom st st₁ hr hsub₁)
          dsimp only
          revert hrec
          cases neighborLoop bk call ns st₁ with
          | error last => exact id
          | ok r =>
            obtain ⟨_ | _, st'⟩ := r
            · rintro ⟨hst', hsub, hdone⟩
              refine ⟨hst', hsub₁.trans hsub, fun c hc => ?_⟩
              rcases List.mem_cons.mp hc with rfl | hc
              · exact ⟨hsub hb₁, hpath⟩
              · exact hdone c hc
            · exact id
        · exact id

/-- One call of the search either sees a cycle or finishes its vertex, unless there are too
many vertices. The induction is on the fuel, which does not run out before the number of
calls reaches its limit. -/
theorem visit_spec (hR : Follows bk R) {limit : ℕ}
    (hnodes : ∀ a b, Edge succ a b → b ∈ nodes) (fuel : ℕ) :
    ∀ (path : List α) (node : α) (st : DfsState α σ), node ∈ nodes → node ∉ st.visited →
      DfsInv succ nodes R path st → limit ≤ fuel + st.visited.card →
      (∀ last, path.getLast? = some last → Edge succ last node) →
      Outcome bk succ nodes limit R path st (fun st' => node ∈ st'.visited)
        (visit bk limit succ fuel node st) := by
  have hcard : ∀ (node : α) (st : DfsState α σ), node ∈ nodes → node ∉ st.visited →
      ∀ path, DfsInv succ nodes R path st → st.visited.card < nodes.card :=
    fun node st hnode hnew path hst =>
      Finset.card_lt_card ⟨hst.visited_subset, fun hsub => hnew (hsub hnode)⟩
  induction fuel with
  | zero =>
    intro path node st hnode hnew hst hfuel _
    have := hcard node st hnode hnew path hst
    show limit < nodes.card
    omega
  | succ fuel ih =>
    intro path node st hnode hnew hst hfuel hedge
    rw [visit]
    by_cases hlimit : limit < st.iterations + 1
    · rw [if_pos hlimit]
      have := hcard node st hnode hnew path hst
      rw [hst.iterations_eq] at hlimit
      show limit < nodes.card
      omega
    rw [if_neg hlimit]
    have henter := hst.enter hR hnode hnew hedge
    have hlast : (path ++ [node]).getLast? = some node := by simp
    have hloop := neighborLoop_spec (fun st => limit ≤ fuel + st.visited.card)
      (fun st₁ st₂ hr hsub => by have := Finset.card_le_card hsub; omega)
      hlast
      (fun b st₁ hb hnew₁ hst₁ hr => ih (path ++ [node]) b st₁ (hnodes node b hb) hnew₁ hst₁ hr
        (by intro last hlast
            obtain rfl : node = last := by simpa using hlast
            exact hb))
      (succ node) (fun b hb => hb) _ henter
      (by rw [Finset.card_insert_of_notMem hnew]; omega)
    dsimp only
    revert hloop
    cases neighborLoop bk (visit bk limit succ fuel) (succ node) _ with
    | error last => exact id
    | ok r =>
      obtain ⟨_ | _, st'⟩ := r
      · rintro ⟨hst', hsub, hdone⟩
        refine ⟨hst'.leave hR hdone, (Finset.subset_insert node st.visited).trans hsub, ?_⟩
        exact hsub (Finset.mem_insert_self node st.visited)
      · exact id

def DfsState.init (extra : σ) : DfsState α σ :=
  { visited := ∅, recStack := ∅, iterations := 0, extra := extra }

/-- The whole search, over roots that are vertices. -/
theorem roots_spec (hR : Follows bk R) (limit : ℕ)
    (hnodes : ∀ a b, Edge succ a b → b ∈ nodes) :
    ∀ (rs : List α), (∀ r ∈ rs, r ∈ nodes) → ∀ st : DfsState α σ,
      (∀ extra, DfsInv succ nodes R [] { st with extra := bk.root extra }) →
      match roots bk limit succ rs st with
      | .error _ => limit < nodes.card
      | .ok (true, st') => FoundCycle bk succ R st'.extra
      | .ok (false, _) => ∀ a, a ∈ st.visited ∨ a ∈ rs →
          Acc (fun b a => Edge succ a b) a := by
  intro rs
  induction rs with
  | nil =>
    intro _ st hst a ha
    rcases ha with ha | ha
    · exact (hst st.extra).finished_acc a ha List.not_mem_nil
    · cases ha
  | cons r rs ih =>
    intro hrs st hst
    have hrs' : ∀ r ∈ rs, r ∈ nodes := fun r hr => hrs r (List.mem_cons_of_mem _ hr)
    rw [roots]
    by_cases hvis : r ∈ st.visited
    · rw [if_neg (not_not.mpr hvis)]
      have hrec := ih hrs' st hst
      revert hrec
      cases roots bk limit succ rs st with
      | error last => exact id
      | ok res =>
        obtain ⟨_ | _, st'⟩ := res
        · intro hacc a ha
          refine hacc a ?_
          rcases ha with ha | ha
          · exact Or.inl ha
          · rcases List.mem_cons.mp ha with rfl | ha
            · exact Or.inl hvis
            · exact Or.inr ha
        · exact id
    · rw [if_pos hvis]
      have hspec := visit_spec hR hnodes limit [] r
        { st with extra := bk.root st.extra } (hrs r List.mem_cons_self)
        hvis (hst st.extra) (Nat.le_add_right _ _) (by simp)
      revert hspec
      cases visit bk limit succ limit r { st with extra := bk.root st.extra } with
      | error last => exact id
      | ok res =>
        obtain ⟨_ | _, st₁⟩ := res
        · rintro ⟨hst₁, hsub, hr⟩
          have hrec := ih hrs' st₁ fun extra => { hst₁ with follows := hR.root extra }
          dsimp only
          revert hrec
          cases roots bk limit succ rs st₁ with
          | error last => exact id
          | ok res =>
            obtain ⟨_ | _, st'⟩ := res
            · intro hacc a ha
              refine hacc a ?_
              rcases ha with ha | ha
              · exact Or.inl (hsub ha)
              · rcases List.mem_cons.mp ha with rfl | ha
                · exact Or.inl hr
                · exact Or.inr ha
            · exact id
        · exact id

theorem dfsInv_init (hR : Follows bk R) (succ : α → List α) (nodes : Finset α)
    (extra extra' : σ) :
    DfsInv succ nodes R []
      { (DfsState.init extra : DfsState α σ) with extra := bk.root extra' } where
  visited_subset := Finset.empty_subset _
  stack_eq := rfl
  stack_visited := Finset.Subset.refl _
  path_nodup := List.nodup_nil
  path_chain := List.isChain_nil
  iterations_eq := rfl
  finished_acc a ha := absurd ha (Finset.notMem_empty a)
  follows := hR.root extra'

theorem roots_init_spec (hR : Follows bk R) (limit : ℕ) (succ : α → List α)
    (hsource : ∀ a b, Edge succ a b → a ∈ nodes) (htarget : ∀ a b, Edge succ a b → b ∈ nodes)
    {rs : List α} (hrs : ∀ r, r ∈ rs ↔ r ∈ nodes) (extra : σ) :
    match roots bk limit succ rs (DfsState.init extra) with
    | .error _ => limit < nodes.card
    | .ok (true, st) => FoundCycle bk succ R st.extra
    | .ok (false, _) => Acyclic succ := by
  have hspec := roots_spec hR limit htarget rs (fun r hr => (hrs r).mp hr)
    (DfsState.init extra) (fun extra' => dfsInv_init hR succ nodes extra extra')
  revert hspec
  cases roots bk limit succ rs (DfsState.init extra) with
  | error last => exact id
  | ok r =>
    obtain ⟨_ | _, st⟩ := r
    · intro hacc
      refine acyclic_of_forall_acc fun a => ?_
      by_cases ha : a ∈ nodes
      · exact hacc a (Or.inr ((hrs a).mpr ha))
      · -- only a vertex has successors
        exact Acc.intro a fun b hab => absurd (hsource a b hab) ha
    · exact id

omit [DecidableEq α] in
theorem FoundCycle.not_acyclic {extra : σ} (h : FoundCycle bk succ R extra) :
    ¬ Acyclic succ := by
  obtain ⟨path, last, back, _, hchain, _, hlast, hback, hedge, _, _⟩ := h
  obtain ⟨before, after, rfl⟩ := List.append_of_mem hback
  have hchain' := (List.isChain_append.mp hchain).2.1
  rw [List.getLast?_append_of_ne_nil _ (List.cons_ne_nil back after)] at hlast
  exact not_acyclic_of_isChain hchain' hlast hedge

end

/-! ## The bound

A search that sees no cycle has made a call for every root, so there are at most as many roots as
it may make calls. -/

section
variable {bk : Bookkeeping α σ} {succ : α → List α} {limit : ℕ}

/-- A later state of a search: the visited set has grown, by a call for each new vertex, and the
number of calls is still within the limit. -/
structure Continues (limit : ℕ) (st st' : DfsState α σ) : Prop where
  visited : st.visited ⊆ st'.visited
  card_le : st.visited.card ≤ st.iterations → st'.visited.card ≤ st'.iterations
  within : st.iterations ≤ limit → st'.iterations ≤ limit

omit [DecidableEq α] in
theorem Continues.refl (limit : ℕ) (st : DfsState α σ) : Continues limit st st :=
  ⟨Finset.Subset.refl _, id, id⟩

omit [DecidableEq α] in
theorem Continues.trans {st st₁ st₂ : DfsState α σ} (h : Continues limit st st₁)
    (h' : Continues limit st₁ st₂) : Continues limit st st₂ :=
  ⟨h.visited.trans h'.visited, h'.card_le ∘ h.card_le, h'.within ∘ h.within⟩

variable (bk) in
theorem neighborLoop_continues {call : α → DfsState α σ → Except α (Bool × DfsState α σ)}
    (hcall : ∀ b st r, call b st = .ok r → Continues limit st r.2) (ns : List α) :
    ∀ st r, neighborLoop bk call ns st = .ok r → Continues limit st r.2 := by
  induction ns with
  | nil =>
    intro st r h
    cases h
    exact .refl limit st
  | cons b ns ih =>
    intro st r h
    rw [neighborLoop] at h
    by_cases hvis : b ∈ st.visited
    · rw [if_neg (not_not.mpr hvis)] at h
      by_cases hstack : b ∈ st.recStack
      · rw [if_pos hstack] at h
        cases h
        exact ⟨Finset.Subset.refl _, id, id⟩
      · rw [if_neg hstack] at h
        exact ih st r h
    · rw [if_pos hvis] at h
      cases hb : call b st with
      | error last => simp [hb] at h
      | ok first =>
        obtain ⟨_ | _, st₁⟩ := first
        · rw [hb] at h
          exact (hcall b st _ hb).trans (ih st₁ r h)
        · rw [hb] at h
          cases h
          exact hcall b st _ hb

/-- A visit only adds to what has been visited, the node included. -/
theorem visit_continues (fuel : ℕ) :
    ∀ (node : α) (st : DfsState α σ) (r : Bool × DfsState α σ),
      visit bk limit succ fuel node st = .ok r →
      Continues limit st r.2 ∧ node ∈ r.2.visited := by
  induction fuel with
  | zero =>
    intro node st r h
    cases h
  | succ fuel ih =>
    intro node st r h
    rw [visit] at h
    by_cases hlimit : limit < st.iterations + 1
    · rw [if_pos hlimit] at h
      cases h
    rw [if_neg hlimit] at h
    dsimp only at h
    have henter : Continues limit st
        { visited := insert node st.visited
          recStack := insert node st.recStack
          iterations := st.iterations + 1
          extra := bk.enter node st.extra } := by
      refine ⟨Finset.subset_insert node st.visited, fun hcard => ?_, fun _ => ?_⟩
      · have := Finset.card_insert_le node st.visited
        dsimp only
        omega
      · dsimp only
        omega
    have hloop := neighborLoop_continues bk (fun b st r hb => (ih b st r hb).1) (succ node)
      { visited := insert node st.visited
        recStack := insert node st.recStack
        iterations := st.iterations + 1
        extra := bk.enter node st.extra }
    revert h hloop
    cases neighborLoop bk (visit bk limit succ fuel) (succ node) _ with
    | error last =>
      intro h
      cases h
    | ok first =>
      obtain ⟨found, st₁⟩ := first
      intro h hloop
      have hst₁ := hloop _ rfl
      have hnode : node ∈ st₁.visited := hst₁.visited (Finset.mem_insert_self node _)
      have hst := henter.trans hst₁
      cases found with
      | false =>
        cases h
        exact ⟨⟨hst.visited, hst.card_le, hst.within⟩, hnode⟩
      | true =>
        cases h
        exact ⟨hst, hnode⟩

theorem roots_continues (rs : List α) :
    ∀ st st' : DfsState α σ, roots bk limit succ rs st = .ok (false, st') →
      Continues limit st st' ∧ ∀ r ∈ rs, r ∈ st'.visited := by
  induction rs with
  | nil =>
    intro st st' h
    cases h
    exact ⟨.refl limit st, by simp⟩
  | cons node rs ih =>
    intro st st' h
    rw [roots] at h
    by_cases hvis : node ∈ st.visited
    · rw [if_neg (not_not.mpr hvis)] at h
      have hrest := ih st st' h
      exact ⟨hrest.1, List.forall_mem_cons.mpr ⟨hrest.1.visited hvis, hrest.2⟩⟩
    · rw [if_pos hvis] at h
      cases hnode : visit bk limit succ limit node { st with extra := bk.root st.extra } with
      | error last => simp [hnode] at h
      | ok first =>
        obtain ⟨_ | _, st₁⟩ := first
        · rw [hnode] at h
          have hfirst := visit_continues limit node _ _ hnode
          have hrest := ih st₁ st' h
          have hstart : Continues limit st st₁ :=
            ⟨hfirst.1.visited, hfirst.1.card_le, hfirst.1.within⟩
          exact ⟨hstart.trans hrest.1,
            List.forall_mem_cons.mpr ⟨hrest.1.visited hfirst.2, hrest.2⟩⟩
        · simp [hnode] at h

theorem roots_init_card_le {rs : List α} {extra : σ} {st' : DfsState α σ}
    (h : roots bk limit succ rs (DfsState.init extra) = .ok (false, st')) :
    rs.toFinset.card ≤ limit := by
  rcases roots_continues rs _ _ h with ⟨hst, hroots⟩
  have hsub : rs.toFinset ⊆ st'.visited := fun r hr => hroots r (List.mem_toFinset.mp hr)
  have hcard := Finset.card_le_card hsub
  have hcalls := hst.card_le (Nat.zero_le _)
  have hlimit := hst.within (Nat.zero_le _)
  omega

end

end FiniteGraph
