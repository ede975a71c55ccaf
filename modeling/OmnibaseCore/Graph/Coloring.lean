import OmnibaseCore.Graph.Trail

/-!
# Depth-first search with three colours

A search that is started from one vertex after the other and does not stop at the first cycle:
when it has met a gray vertex it returns, leaving gray the vertices that it was in. A later
start that comes to one of them looks for it on the current path in vain, and fails.
-/

namespace FiniteGraph

open Relation

inductive Color
  | white
  | gray
  | black
deriving DecidableEq

/-- The variables of the search: the colours of the vertices, the vertices it is in, and what
the caller keeps. -/
structure ColorState (α σ : Type*) where
  color : α → Option Color
  path : List α
  extra : σ

inductive ColorError (α : Type*)
  | notOnPath (a : α)
  | outOfFuel

section
variable {α σ : Type*}

/-- The search leaves a vertex from which it has found a cycle. -/
def ColorState.unwind (st : ColorState α σ) : ColorState α σ :=
  { st with path := st.path.dropLast }

variable [DecidableEq α]

def ColorState.enter (node : α) (st : ColorState α σ) : ColorState α σ :=
  { st with
    color := Function.update st.color node (some .gray)
    path := st.path ++ [node] }

/-- The search leaves a vertex from which it has found none. -/
def ColorState.finish (node : α) (st : ColorState α σ) : ColorState α σ :=
  { st with
    color := Function.update st.color node (some .black)
    path := st.path.dropLast }

variable (report : List α → σ → σ)

/-- The loop over the neighbours of `node`, `dfs` being the recursive call. -/
def colorLoop (dfs : α → ColorState α σ → Except (ColorError α) (Bool × ColorState α σ))
    (node : α) : List α → ColorState α σ → Except (ColorError α) (Bool × ColorState α σ)
  | [], st => .ok (false, st.finish node)
  | neighbor :: rest, st =>
    match st.color neighbor with
    | some .gray =>
      match st.path.idxOf? neighbor with
      | none => .error (.notOnPath neighbor)
      | some start =>
        let cycle := st.path.drop start ++ [neighbor]
        .ok (true, { st with extra := report cycle st.extra }.unwind)
    | some .white =>
      match dfs neighbor st with
      | .error e => .error e
      | .ok (true, st) => .ok (true, st.unwind)
      | .ok (false, st) => colorLoop dfs node rest st
    | _ => colorLoop dfs node rest st

/-- The search at `node`. It answers whether it has found a cycle. -/
def colorDfs (succ : α → List α) :
    ℕ → α → ColorState α σ → Except (ColorError α) (Bool × ColorState α σ)
  | 0, _, _ => .error .outOfFuel
  | fuel + 1, node, st =>
    colorLoop report (colorDfs succ fuel) node (succ node) (st.enter node)

/-- The search from every root that is white when its turn comes. -/
def colorRoots (succ : α → List α) (fuel : ℕ) :
    List α → ColorState α σ → Except (ColorError α) (ColorState α σ)
  | [], st => .ok st
  | node :: rest, st =>
    if st.color node = some .white then
      match colorDfs report succ fuel node st with
      | .error e => .error e
      | .ok (_, st) => colorRoots succ fuel rest st
    else
      colorRoots succ fuel rest st

end

/-! ## The invariant -/

section
variable {α σ : Type*}

/-- The state of the search when it is in the vertices of `path`, former starts having left
gray those with `stale`. -/
structure ColorInv (succ : α → List α) (nodes : Finset α) (path : List α) (stale : α → Prop)
    (st : ColorState α σ) : Prop where
  path_eq : st.path = path
  path_nodup : path.Nodup
  colored_iff : ∀ a, st.color a ≠ none ↔ a ∈ nodes
  gray_iff : ∀ a, st.color a = some .gray ↔ a ∈ path ∨ stale a
  black_acyclic : ∀ a, st.color a = some .black → ¬ LeadsToCycle succ a

variable {succ : α → List α} {nodes : Finset α} {path : List α} {stale : α → Prop}
  {node : α} {st : ColorState α σ}

section
variable (h : ColorInv succ nodes path stale st)
include h

theorem ColorInv.mem_nodes (hnode : node ∈ path) :
    node ∈ nodes := by
  rw [← h.colored_iff, (h.gray_iff node).mpr (Or.inl hnode)]
  exact Option.some_ne_none _

theorem ColorInv.length_le :
    path.length ≤ nodes.card := by
  classical
  rw [← List.toFinset_card_of_nodup h.path_nodup]
  refine Finset.card_le_card fun a ha => ?_
  exact h.mem_nodes (List.mem_toFinset.mp ha)

theorem ColorInv.not_mem_of_white
    (hwhite : st.color node = some .white) : node ∉ path ∧ ¬ stale node := by
  have hgray : ¬ (node ∈ path ∨ stale node) := by
    rw [← h.gray_iff, hwhite]
    simp
  exact not_or.mp hgray

theorem ColorInv.white_or_gray (hnode : node ∈ nodes) (hcycle : LeadsToCycle succ node) :
    st.color node = some .white ∨ st.color node = some .gray := by
  have hcolored := (h.colored_iff node).mpr hnode
  have hblack := h.black_acyclic node
  cases hcolor : st.color node with
  | none => exact absurd hcolor hcolored
  | some c =>
    cases c with
    | white => exact Or.inl rfl
    | gray => exact Or.inr rfl
    | black => exact absurd hcycle (hblack hcolor)

end

theorem ColorInv.unwind {stale' : α → Prop} (h : ColorInv succ nodes (path ++ [node]) stale st)
    (hstale : ∀ a, a ∈ path ++ [node] ∨ stale a ↔ a ∈ path ∨ stale' a) (extra : σ) :
    ColorInv succ nodes path stale' { st with extra := extra }.unwind where
  path_eq := by
    show st.path.dropLast = path
    rw [h.path_eq, List.dropLast_concat]
  path_nodup := h.path_nodup.of_append_left
  colored_iff := h.colored_iff
  gray_iff a := (h.gray_iff a).trans (hstale a)
  black_acyclic := h.black_acyclic

theorem ColorInv.congr_stale {stale' : α → Prop} (h : ColorInv succ nodes path stale st)
    (hstale : ∀ a, stale' a ↔ stale a) : ColorInv succ nodes path stale' st := by
  obtain rfl : stale' = stale := funext fun a => propext (hstale a)
  exact h

variable [DecidableEq α]

theorem ColorInv.enter (h : ColorInv succ nodes path stale st) (hnode : node ∈ nodes)
    (hwhite : st.color node = some .white) :
    ColorInv succ nodes (path ++ [node]) stale (st.enter node) where
  path_eq := by rw [ColorState.enter, h.path_eq]
  path_nodup := by
    rw [List.nodup_append_comm, List.singleton_append, List.nodup_cons]
    exact ⟨(h.not_mem_of_white hwhite).1, h.path_nodup⟩
  colored_iff a := by
    by_cases ha : a = node
    · simp [ColorState.enter, ha, hnode]
    · simpa [ColorState.enter, ha] using h.colored_iff a
  gray_iff a := by
    by_cases ha : a = node
    · simp [ColorState.enter, ha]
    · simpa [ColorState.enter, ha] using h.gray_iff a
  black_acyclic a hblack := by
    by_cases ha : a = node
    · simp [ColorState.enter, ha] at hblack
    · exact h.black_acyclic a (by simpa [ColorState.enter, ha] using hblack)

/-- A finished vertex is black, and the rest as before the search entered it. -/
theorem ColorInv.finish (h : ColorInv succ nodes (path ++ [node]) stale st)
    (hstale : ¬ stale node) (hacyclic : ¬ LeadsToCycle succ node) :
    ColorInv succ nodes path stale (st.finish node) where
  path_eq := by rw [ColorState.finish, h.path_eq, List.dropLast_concat]
  path_nodup := h.path_nodup.of_append_left
  colored_iff a := by
    by_cases ha : a = node
    · have hnode : node ∈ nodes := h.mem_nodes (List.mem_append_right path List.mem_cons_self)
      simp [ColorState.finish, ha, hnode]
    · simpa [ColorState.finish, ha] using h.colored_iff a
  gray_iff a := by
    by_cases ha : a = node
    · have hpath : node ∉ path := by
        have hnodup := h.path_nodup
        rw [List.nodup_append_comm, List.singleton_append, List.nodup_cons] at hnodup
        exact hnodup.1
      simp [ColorState.finish, ha, hpath, hstale]
    · simpa [ColorState.finish, ha] using h.gray_iff a
  black_acyclic a hblack := by
    by_cases ha : a = node
    · rw [ha]
      exact hacyclic
    · exact h.black_acyclic a (by simpa [ColorState.finish, ha] using hblack)

/-! ## One call -/

variable {report : List α → σ → σ} {fuel : ℕ}

variable (report) in
theorem colorLoop_append {dfs : α → ColorState α σ → Except (ColorError α) (Bool × ColorState α σ)}
    {skipped : List α}
    (hdfs : ∀ b ∈ skipped, ∀ st, ColorInv succ nodes path stale st → st.color b = some .white →
      ∃ st', dfs b st = .ok (false, st') ∧ ColorInv succ nodes path stale st' ∧
        st'.extra = st.extra)
    (hgray : ∀ b ∈ skipped, b ∉ path ∧ ¬ stale b) (rest : List α)
    (h : ColorInv succ nodes path stale st) :
    ∃ st', colorLoop report dfs node (skipped ++ rest) st = colorLoop report dfs node rest st' ∧
      ColorInv succ nodes path stale st' ∧ st'.extra = st.extra := by
  induction skipped generalizing st with
  | nil => exact ⟨st, rfl, h, rfl⟩
  | cons b skipped ih =>
    rw [List.forall_mem_cons] at hdfs hgray
    have hb : st.color b ≠ some .gray := by
      rw [Ne, h.gray_iff]
      exact not_or.mpr hgray.1
    rw [List.cons_append, colorLoop]
    cases hcolor : st.color b with
    | none => exact ih hdfs.2 hgray.2 h
    | some c =>
      cases c with
      | white =>
        obtain ⟨st₁, hcall, h₁, hextra₁⟩ := hdfs.1 st h hcolor
        obtain ⟨st', hloop, h', hextra⟩ := ih hdfs.2 hgray.2 h₁
        dsimp only
        rw [hcall]
        exact ⟨st', hloop, h', hextra.trans hextra₁⟩
      | gray => exact absurd hcolor hb
      | black => exact ih hdfs.2 hgray.2 h

variable (report) in
/-- Below a vertex that leads to no cycle and to no gray vertex. The induction is on the fuel,
which the length of the path makes up for. -/
theorem colorDfs_of_not_leadsToCycle (hnodes : ∀ a b, Edge succ a b → b ∈ nodes)
    (h : ColorInv succ nodes path stale st) (hnode : node ∈ nodes)
    (hwhite : st.color node = some .white) (hacyclic : ¬ LeadsToCycle succ node)
    (hgray : ∀ a, a ∈ path ∨ stale a → ¬ ReflTransGen (Edge succ) node a)
    (hfuel : nodes.card < fuel + path.length) :
    ∃ st', colorDfs report succ fuel node st = .ok (false, st') ∧
      ColorInv succ nodes path stale st' ∧ st'.extra = st.extra := by
  induction fuel generalizing node path st with
  | zero =>
    have := h.length_le
    omega
  | succ fuel ih =>
    have henter := h.enter hnode hwhite
    have hchild : ∀ b ∈ succ node, ∀ a, a ∈ path ++ [node] ∨ stale a →
        ¬ ReflTransGen (Edge succ) b a := by
      intro b hb a ha hba
      rw [List.mem_append, List.mem_singleton, or_right_comm] at ha
      rcases ha with ha | rfl
      · exact hgray a ha (ReflTransGen.head hb hba)
      · -- the vertex would be on a cycle
        exact hacyclic ⟨a, ReflTransGen.refl, TransGen.head' hb hba⟩
    have hdfs : ∀ b ∈ succ node, ∀ st, ColorInv succ nodes (path ++ [node]) stale st →
        st.color b = some .white → ∃ st', colorDfs report succ fuel b st = .ok (false, st') ∧
          ColorInv succ nodes (path ++ [node]) stale st' ∧ st'.extra = st.extra := by
      intro b hb st₁ h₁ hwhite₁
      refine ih h₁ (hnodes node b hb) hwhite₁ (fun hcycle => hacyclic (hcycle.of_edge hb))
        (hchild b hb) ?_
      rw [List.length_append, List.length_singleton]
      omega
    have hskip : ∀ b ∈ succ node, b ∉ path ++ [node] ∧ ¬ stale b := by
      intro b hb
      exact not_or.mp fun hgray' => hchild b hb b hgray' ReflTransGen.refl
    obtain ⟨st₁, hloop, h₁, hextra⟩ := colorLoop_append report hdfs hskip [] henter
    rw [List.append_nil] at hloop
    refine ⟨st₁.finish node, ?_, h₁.finish (h.not_mem_of_white hwhite).2 hacyclic, hextra⟩
    rw [colorDfs, hloop, colorLoop]

/-- What a call at `node` returns, when `node` leads to a cycle: a failure, if the trail of the
vertex has one that a former start has left gray, and else a closed walk, the vertices of the
trail being gray from then on. -/
def TrailOutcome (report : List α → σ → σ) (succ : α → List α) (nodes : Finset α)
    (path : List α) (stale : α → Prop) (node : α) (extra : σ) :
    Except (ColorError α) (Bool × ColorState α σ) → Prop
  | .error e => (∃ a, e = .notOnPath a) ∧ ∃ a, Trail succ node a ∧ stale a
  | .ok (found, st) => found = true ∧ (∀ a, Trail succ node a → ¬ stale a) ∧
    ColorInv succ nodes path (fun a => stale a ∨ Trail succ node a) st ∧
    ∃ cycle, ClosedWalk (Edge succ) cycle ∧ st.extra = report cycle extra

variable (report) in
/-- The call follows the trail: the path is its part up to the vertex. -/
theorem colorDfs_of_leadsToCycle (hnodes : ∀ a b, Edge succ a b → b ∈ nodes)
    (h : ColorInv succ nodes path stale st) (hnode : node ∈ nodes)
    (hwhite : st.color node = some .white) (hcycle : LeadsToCycle succ node)
    (hchain : (path ++ [node]).IsChain (FirstCyclic succ))
    (hpath : ∀ a ∈ path, LeadsToCycle succ a ∧ ¬ stale a)
    (hstale : ∀ a, stale a → LeadsToCycle succ a)
    (hfuel : nodes.card < fuel + path.length) :
    TrailOutcome report succ nodes path stale node st.extra
      (colorDfs report succ fuel node st) := by
  induction fuel generalizing node path st with
  | zero =>
    have := h.length_le
    omega
  | succ fuel ih =>
    obtain ⟨next, hnext⟩ := exists_firstCyclic hcycle
    obtain ⟨before, after, hsucc, hbefore, hnextCycle⟩ := id hnext
    have hedge : ∀ b ∈ before, Edge succ node b := by
      intro b hb
      show b ∈ succ node
      rw [hsucc]
      exact List.mem_append_left _ hb
    have henter := h.enter hnode hwhite
    have hpath' : ∀ a ∈ path ++ [node], LeadsToCycle succ a ∧ ¬ stale a := by
      intro a ha
      rcases List.mem_append.mp ha with ha | ha
      · exact hpath a ha
      · rw [List.mem_singleton.mp ha]
        exact ⟨hcycle, (h.not_mem_of_white hwhite).2⟩
    have hgray : ∀ a, a ∈ path ++ [node] ∨ stale a → LeadsToCycle succ a := fun a ha =>
      ha.elim (fun ha => (hpath' a ha).1) (hstale a)
    have hlength : nodes.card < fuel + (path ++ [node]).length := by
      rw [List.length_append, List.length_singleton]
      omega
    -- the successors before `next` are turned black
    have hdfs : ∀ b ∈ before, ∀ st, ColorInv succ nodes (path ++ [node]) stale st →
        st.color b = some .white → ∃ st', colorDfs report succ fuel b st = .ok (false, st') ∧
          ColorInv succ nodes (path ++ [node]) stale st' ∧ st'.extra = st.extra :=
      fun b hb st₁ h₁ hwhite₁ =>
        colorDfs_of_not_leadsToCycle report hnodes h₁ (hnodes node b (hedge b hb)) hwhite₁
          (hbefore b hb) (fun a ha hba => hbefore b hb ((hgray a ha).of_reach hba)) hlength
    have hskip : ∀ b ∈ before, b ∉ path ++ [node] ∧ ¬ stale b := fun b hb =>
      not_or.mp fun hgray' => hbefore b hb (hgray b hgray')
    obtain ⟨st₁, hloop, h₁, hextra⟩ := colorLoop_append report hdfs hskip
      (next :: after) henter
    rw [colorDfs, hsucc, hloop, colorLoop]
    have hlast : (path ++ [node]).getLast? = some node := by
      rw [List.getLast?_append, List.getLast?_singleton]
      rfl
    rcases h₁.white_or_gray (hnodes node next hnext.edge) hnextCycle with hcolor | hcolor
    · have hchain' : (path ++ [node] ++ [next]).IsChain (FirstCyclic succ) := by
        rw [List.isChain_append]
        refine ⟨hchain, List.isChain_singleton next, fun x hx y hy => ?_⟩
        rw [hlast, Option.mem_some_iff] at hx
        rw [List.head?_singleton, Option.mem_some_iff] at hy
        rw [← hx, ← hy]
        exact hnext
      have hcall := ih h₁ (hnodes node next hnext.edge) hcolor hnextCycle hchain' hpath' hlength
      rw [hcolor]
      dsimp only
      cases hdfs' : colorDfs report succ fuel next st₁ with
      | error e =>
        rw [hdfs'] at hcall
        obtain ⟨herror, a, ha, hstale'⟩ := hcall
        exact ⟨herror, a, (trail_iff_of_firstCyclic hnext).mpr (Or.inr ha), hstale'⟩
      | ok r =>
        rw [hdfs'] at hcall
        obtain ⟨found, st₂⟩ := r
        obtain ⟨rfl, happart, h₂, cycle, hclosed, hextra₂⟩ := hcall
        refine ⟨rfl, fun a ha => ?_, h₂.unwind (fun a => ?_) st₂.extra, cycle, hclosed, ?_⟩
        · rcases (trail_iff_of_firstCyclic hnext).mp ha with rfl | ha
          · exact (h.not_mem_of_white hwhite).2
          · exact happart a ha
        · rw [trail_iff_of_firstCyclic hnext, List.mem_append, List.mem_singleton]
          tauto
        · exact hextra₂.trans (congrArg (report cycle) hextra)
    · rw [hcolor]
      dsimp only
      cases hstart : st₁.path.idxOf? next with
      | none =>
        rw [h₁.path_eq, List.idxOf?_eq_none_iff] at hstart
        refine ⟨⟨next, rfl⟩, next, ReflTransGen.single hnext, ?_⟩
        exact ((h₁.gray_iff next).mp hcolor).resolve_left hstart
      | some start =>
        rw [h₁.path_eq] at hstart
        have hmem : next ∈ path ++ [node] := by
          rw [← List.isSome_idxOf?, hstart]
          rfl
        -- the path has come back to itself, so that it holds the rest of the trail
        have hcloses : ∀ a, Trail succ node a → a ∈ path ++ [node] := by
          intro a ha
          rcases (trail_iff_of_firstCyclic hnext).mp ha with rfl | ha
          · exact List.mem_append_right path List.mem_cons_self
          · exact Trail.mem_of_closes hchain hlast hnext hmem ha
        have hclosed : ClosedWalk (Edge succ) (st₁.path.drop start ++ [next]) := by
          rw [h₁.path_eq]
          exact closedWalk_drop (hchain.imp fun _ _ => FirstCyclic.edge) hlast hnext.edge hstart
        refine ⟨rfl, fun a ha => (hpath' a (hcloses a ha)).2, h₁.unwind (fun a => ?_) _, _,
          hclosed, ?_⟩
        · constructor
          · intro ha
            rw [List.mem_append, List.mem_singleton] at ha
            rcases ha with (ha | rfl) | ha
            · exact Or.inl ha
            · exact Or.inr (Or.inr ReflTransGen.refl)
            · exact Or.inr (Or.inl ha)
          · intro ha
            rcases ha with ha | ha | ha
            · exact Or.inl (List.mem_append_left _ ha)
            · exact Or.inr ha
            · exact Or.inl (hcloses a ha)
        · exact congrArg (report _) hextra

/-! ## All roots -/

/-- Before the search every vertex is white. -/
theorem ColorInv.init (extra : σ) : ColorInv succ nodes [] (OnTrails succ [])
    { color := fun a => if a ∈ nodes then some .white else none, path := [], extra } where
  path_eq := rfl
  path_nodup := List.nodup_nil
  colored_iff a := by simp
  gray_iff a := by
    dsimp only
    split_ifs <;> simp [OnTrails]
  black_acyclic a hblack := by
    dsimp only at hblack
    split_ifs at hblack
    simp at hblack

/-- What the search from the roots `later` returns, those of `earlier` having been searched
from. -/
def RootsOutcome (report : List α → σ → σ) (succ : α → List α) (earlier later : List α)
    (extra : σ) : Except (ColorError α) (ColorState α σ) → Prop
  | .error e => (∃ a, e = .notOnPath a) ∧
    ¬ ∀ pre a post, later = pre ++ a :: post → ApartFrom succ (earlier ++ pre) a
  | .ok st => (∀ pre a post, later = pre ++ a :: post → ApartFrom succ (earlier ++ pre) a) ∧
    ∃ cycles : List (List α), (∀ cycle ∈ cycles, ClosedWalk (Edge succ) cycle) ∧
      st.extra = cycles.foldl (fun extra cycle => report cycle extra) extra ∧
      (cycles ≠ [] ↔ ∃ a ∈ later, LeadsToCycle succ a ∧ ¬ OnTrails succ earlier a)

omit [DecidableEq α] in
theorem RootsOutcome.skip {earlier later : List α} {extra : σ}
    {r : Except (ColorError α) (ColorState α σ)}
    (hnode : LeadsToCycle succ node → OnTrails succ earlier node)
    (h : RootsOutcome report succ (earlier ++ [node]) later extra r) :
    RootsOutcome report succ earlier (node :: later) extra r := by
  have hapart : ApartFrom succ earlier node := fun hcycle => Or.inl (hnode hcycle)
  cases r with
  | error e => exact ⟨h.1, fun hall => h.2 (apartFrom_cons_iff.mp hall).2⟩
  | ok st =>
    obtain ⟨hall, cycles, hclosed, hextra, hcycles⟩ := h
    refine ⟨apartFrom_cons_iff.mpr ⟨hapart, hall⟩, cycles, hclosed, hextra, ?_⟩
    rw [hcycles, List.exists_mem_cons_iff]
    simp only [onTrails_append_iff hnode]
    constructor
    · exact Or.inr
    · intro hor
      rcases hor with ⟨hcycle, hnot⟩ | hor
      · exact absurd (hnode hcycle) hnot
      · exact hor

variable (report) in
/-- The search from all roots reports the cycles on their trails. -/
theorem colorRoots_spec (hnodes : ∀ a b, Edge succ a b → b ∈ nodes) (hfuel : nodes.card < fuel)
    {earlier later : List α} (hlater : ∀ a ∈ later, a ∈ nodes)
    (h : ColorInv succ nodes [] (OnTrails succ earlier) st) :
    RootsOutcome report succ earlier later st.extra (colorRoots report succ fuel later st) := by
  induction later generalizing earlier st with
  | nil =>
    refine ⟨fun pre a post hnil => ?_, [], fun c hc => absurd hc List.not_mem_nil, rfl, by simp⟩
    simp at hnil
  | cons a later ih =>
    rw [List.forall_mem_cons] at hlater
    rw [colorRoots]
    -- a root that has been met on a trail is skipped
    by_cases hwhite : st.color a = some .white
    · rw [if_pos hwhite]
      have hnot : ¬ OnTrails succ earlier a := (h.not_mem_of_white hwhite).2
      by_cases hcycle : LeadsToCycle succ a
      · have hcall := colorDfs_of_leadsToCycle report hnodes h hlater.1 hwhite hcycle
          (List.isChain_singleton a) (fun b hb => absurd hb List.not_mem_nil)
          (fun b hb => hb.leadsToCycle) (by simpa using hfuel)
        cases hdfs : colorDfs report succ fuel a st with
        | error e =>
          rw [hdfs] at hcall
          obtain ⟨herror, b, hb, hstale⟩ := hcall
          refine ⟨herror, fun hall => ?_⟩
          rcases (apartFrom_cons_iff.mp hall).1 hcycle with ha | happart
          · exact hnot ha
          · exact happart b hstale hb
        | ok r =>
          rw [hdfs] at hcall
          obtain ⟨found, st₁⟩ := r
          obtain ⟨-, happart, h₁, cycle, hclosed, hextra⟩ := hcall
          have hstale : ∀ b, OnTrails succ (earlier ++ [a]) b ↔
              OnTrails succ earlier b ∨ Trail succ a b := by
            intro b
            rw [onTrails_append_singleton, and_iff_right hcycle]
          have hrest := ih hlater.2 (h₁.congr_stale hstale)
          have hroot : ApartFrom succ earlier a :=
            fun _ => Or.inr fun b hb hab => happart b hab hb
          dsimp only
          cases hroots : colorRoots report succ fuel later st₁ with
          | error e =>
            rw [hroots] at hrest
            exact ⟨hrest.1, fun hall => hrest.2 (apartFrom_cons_iff.mp hall).2⟩
          | ok st₂ =>
            rw [hroots] at hrest
            obtain ⟨hall, cycles, hclosed', hextra', -⟩ := hrest
            refine ⟨apartFrom_cons_iff.mpr ⟨hroot, hall⟩, cycle :: cycles,
              List.forall_mem_cons.mpr ⟨hclosed, hclosed'⟩, ?_, ?_⟩
            · rw [hextra', List.foldl_cons, hextra]
            · exact iff_of_true (List.cons_ne_nil cycle cycles)
                ⟨a, List.mem_cons_self, hcycle, hnot⟩
      · obtain ⟨st₁, hdfs, h₁, hextra⟩ := colorDfs_of_not_leadsToCycle report
          hnodes h hlater.1 hwhite hcycle
          (fun b hb hab => hcycle ((hb.resolve_left List.not_mem_nil).leadsToCycle.of_reach hab))
          (by simpa using hfuel)
        have hskip : LeadsToCycle succ a → OnTrails succ earlier a := fun h => absurd h hcycle
        have hrest := ih hlater.2 (h₁.congr_stale (onTrails_append_iff hskip))
        rw [hextra] at hrest
        rw [hdfs]
        exact RootsOutcome.skip hskip hrest
    · rw [if_neg hwhite]
      have hstale : LeadsToCycle succ a → OnTrails succ earlier a := by
        intro hcycle
        have hgray := (h.white_or_gray hlater.1 hcycle).resolve_left hwhite
        exact ((h.gray_iff a).mp hgray).resolve_left List.not_mem_nil
      exact RootsOutcome.skip hstale
        (ih hlater.2 (h.congr_stale (onTrails_append_iff hstale)))

end

end FiniteGraph
