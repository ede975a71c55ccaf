import OmnibaseCore.Graph.Basic

/-!
# Kahn's algorithm

Topological sorting by in-degree counting over a worklist: take a vertex out of the
worklist, append it to the result, lower the in-degree of each of its successors, and add
those that reach zero. Repeated edges are counted as often as they occur.

The order in which a worklist hands out its vertices is left open. A `Worklist` is any
container with the laws of a multiset; a queue and a priority queue are the two uses. The
result is described for all of them by `kahn_spec`: no vertex twice, every predecessor
earlier, every vertex whose predecessors are all in the result is in it, and each vertex of
the result was handed out by a worklist that held exactly the vertices available then.
-/

namespace FiniteGraph

open Relation

universe u

variable {α : Type u}

/-- A container of vertices that gives one of them back at a time. -/
structure Worklist (α : Type u) where
  Carrier : Type u
  elems : Carrier → List α
  empty : Carrier
  push : α → Carrier → Carrier
  pop : Carrier → Option (α × Carrier)
  elems_empty : elems empty = []
  push_perm : ∀ a w, (elems (push a w)).Perm (a :: elems w)
  pop_none : ∀ w, pop w = none → elems w = []
  pop_some : ∀ w a w', pop w = some (a, w') → (elems w).Perm (a :: elems w')

/-- First in, first out. -/
def Worklist.queue (α : Type u) : Worklist α where
  Carrier := List α
  elems w := w
  empty := []
  push a w := w ++ [a]
  pop
    | [] => none
    | a :: w => some (a, w)
  elems_empty := rfl
  push_perm a w := List.perm_append_singleton a w
  pop_none
    | [], _ => rfl
  pop_some
    | b :: w, a, w', h => by
      obtain ⟨rfl, rfl⟩ : b = a ∧ w = w' := by simpa using h
      exact List.Perm.refl _

/-- A priority queue, which gives back a vertex with the least key. -/
def Worklist.heap [DecidableEq α] {κ : Type*} [LinearOrder κ] (key : α → κ) : Worklist α where
  Carrier := List α
  elems w := w
  empty := []
  push a w := a :: w
  pop w := (w.argmin key).map fun a => (a, w.erase a)
  elems_empty := rfl
  push_perm a w := List.Perm.refl _
  pop_none w h := by
    rw [Option.map_eq_none_iff] at h
    exact List.argmin_eq_none.mp h
  pop_some w a w' h := by
    obtain ⟨b, hb, heq⟩ := Option.map_eq_some_iff.mp h
    obtain ⟨rfl, rfl⟩ : b = a ∧ w.erase b = w' := by simpa using heq
    exact List.perm_cons_erase (List.argmin_mem hb)

theorem Worklist.heap_pop_le [DecidableEq α] {κ : Type*} [LinearOrder κ] {key : α → κ}
    {w w' : List α} {a : α} (h : (Worklist.heap key).pop w = some (a, w')) :
    ∀ b ∈ w, key a ≤ key b := by
  intro b hb
  obtain ⟨c, hc, heq⟩ := Option.map_eq_some_iff.mp h
  obtain ⟨rfl, -⟩ : c = a ∧ w.erase c = w' := by simpa using heq
  exact List.le_of_mem_argmin hb hc

/-- The variables of the main loop. -/
structure KahnState (wl : Worklist α) where
  inDegree : α → ℤ
  work : wl.Carrier
  result : List α

variable [DecidableEq α] (wl : Worklist α)

/-- The loop over the successors of a vertex that has just been appended to the result. -/
def relax : List α → KahnState wl → KahnState wl
  | [], st => st
  | neighbor :: rest, st =>
    let inDegree := Function.update st.inDegree neighbor (st.inDegree neighbor - 1)
    if inDegree neighbor = 0 then
      relax rest { st with inDegree := inDegree, work := wl.push neighbor st.work }
    else
      relax rest { st with inDegree := inDegree }

/-- The main loop. Each turn appends one vertex to the result, which the fuel counts. -/
def kahnLoop (succ : α → List α) : ℕ → KahnState wl → KahnState wl
  | 0, st => st
  | fuel + 1, st =>
    match wl.pop st.work with
    | none => st
    | some (node, work) =>
      kahnLoop succ fuel
        (relax wl (succ node) { st with work := work, result := st.result ++ [node] })

/-- The worklist of the vertices without predecessors, in the order of `nodes`. -/
def initialWork (inDegree : α → ℤ) (nodes : List α) : wl.Carrier :=
  nodes.foldl (fun work a => if inDegree a = 0 then wl.push a work else work) wl.empty

/-- Kahn's algorithm on the vertices `nodes`. -/
def kahn (nodes : List α) (succ : α → List α) (inDegree : α → ℤ) : List α :=
  (kahnLoop wl succ nodes.length
    { inDegree := inDegree, work := initialWork wl inDegree nodes, result := [] }).result

/-! ## Relaxing the edges of one vertex -/

@[simp] theorem relax_result (ns : List α) (st : KahnState wl) :
    (relax wl ns st).result = st.result := by
  induction ns generalizing st with
  | nil => rfl
  | cons b ns ih =>
    rw [relax]
    split_ifs <;> rw [ih]

/-- After relaxing a list of edges the in-degrees have gone down by the number of times each
vertex occurs, and the vertices that reached zero have been pushed, each once. -/
theorem relax_spec (ns : List α) :
    ∀ st : KahnState wl, (∀ a ∈ ns, (ns.count a : ℤ) ≤ st.inDegree a) →
      (∀ a, (relax wl ns st).inDegree a = st.inDegree a - ns.count a) ∧
      ∃ new : List α, new.Nodup ∧ (∀ a, a ∈ new ↔ a ∈ ns ∧ st.inDegree a = ns.count a) ∧
        (wl.elems (relax wl ns st).work).Perm (new ++ wl.elems st.work) := by
  induction ns with
  | nil =>
    intro st _
    exact ⟨by simp [relax], [], List.nodup_nil, by simp, List.Perm.refl _⟩
  | cons b ns ih =>
    intro st hle
    -- the head lowers its own in-degree by one, and no other
    have hcount : ∀ a, ((b :: ns).count a : ℤ) = ns.count a + if b = a then 1 else 0 := by
      intro a
      rw [List.count_cons]
      by_cases hba : b = a <;> simp [hba]
    have hupd : ∀ a, Function.update st.inDegree b (st.inDegree b - 1) a
        = st.inDegree a - if b = a then 1 else 0 := by
      intro a
      by_cases hba : b = a
      · subst hba; simp
      · rw [Function.update_of_ne (Ne.symm hba), if_neg hba, sub_zero]
    have hle' : ∀ a ∈ ns,
        (ns.count a : ℤ) ≤ Function.update st.inDegree b (st.inDegree b - 1) a := by
      intro a ha
      have := hle a (List.mem_cons_of_mem b ha)
      rw [hcount] at this
      rw [hupd]
      omega
    rw [relax]
    by_cases hzero : Function.update st.inDegree b (st.inDegree b - 1) b = 0
    · rw [if_pos hzero]
      obtain ⟨hdeg, new, hnodup, hnew, hperm⟩ := ih
        { st with
          inDegree := Function.update st.inDegree b (st.inDegree b - 1)
          work := wl.push b st.work } hle'
      refine ⟨fun a => ?_, b :: new, ?_, fun a => ?_, ?_⟩
      · rw [hdeg]
        dsimp only
        rw [hupd, hcount]
        ring
      · -- the in-degree of `b` is used up, so `b` does not occur again
        rw [List.nodup_cons]
        refine ⟨fun hb => ?_, hnodup⟩
        have hbns := ((hnew b).mp hb).1
        have hpos := List.count_pos_iff.mpr hbns
        have := hle' b hbns
        omega
      · rw [List.mem_cons, hnew, List.mem_cons, hcount]
        dsimp only
        rw [hupd] at hzero ⊢
        rw [if_pos rfl] at hzero
        by_cases hba : b = a
        · subst hba
          have hns : ns.count b = 0 := by
            by_contra hne
            have := hle' b (List.count_pos_iff.mp (Nat.pos_of_ne_zero hne))
            rw [hupd, if_pos rfl] at this
            omega
          simp only [true_or, true_and, if_true, hns, true_iff]
          omega
        · rw [if_neg hba]
          simp only [Ne.symm hba, false_or, sub_zero, add_zero]
      · refine hperm.trans ?_
        refine ((wl.push_perm b st.work).append_left new).trans ?_
        exact List.perm_middle
    · rw [if_neg hzero]
      obtain ⟨hdeg, new, hnodup, hnew, hperm⟩ := ih
        { st with inDegree := Function.update st.inDegree b (st.inDegree b - 1) } hle'
      refine ⟨fun a => ?_, new, hnodup, fun a => ?_, hperm⟩
      · rw [hdeg]
        dsimp only
        rw [hupd, hcount]
        ring
      · rw [hnew, List.mem_cons, hcount]
        dsimp only
        rw [hupd] at hzero ⊢
        rw [if_pos rfl] at hzero
        by_cases hba : b = a
        · subst hba
          simp only [true_or, true_and, if_true]
          constructor
          · rintro ⟨_, heq⟩; omega
          · intro heq
            refine ⟨?_, by omega⟩
            by_contra hb
            have hns : ns.count b = 0 := List.count_eq_zero.mpr hb
            omega
        · rw [if_neg hba]
          simp only [Ne.symm hba, false_or, sub_zero, add_zero]

/-! ## The main loop -/

section
variable (nodes : List α) (succ : α → List α)

/-- What the algorithm is given: the edges stay within `nodes`, and the in-degrees count
them. -/
structure KahnInput (inDegree : α → ℤ) : Prop where
  nodup : nodes.Nodup
  source : SourcesIn nodes succ
  target : ∀ a b, Edge succ a b → b ∈ nodes
  degree : ∀ b ∈ nodes, inDegree b = ∑ a ∈ nodes.toFinset, ((succ a).count b : ℤ)

/-- A vertex that may come next once the vertices of `done` have been listed. -/
def Available (done : List α) (b : α) : Prop :=
  b ∈ nodes ∧ b ∉ done ∧ ∀ a, Edge succ a b → a ∈ done

/-- Every vertex of a result was handed out by a worklist that held exactly the vertices
available then. -/
def PoppedInOrder (result : List α) : Prop :=
  ∀ l₁ a l₂, result = l₁ ++ a :: l₂ →
    ∃ w w', wl.pop w = some (a, w') ∧ ∀ b, b ∈ wl.elems w ↔ Available nodes succ l₁ b

/-- The invariant of the main loop. -/
structure KahnInv (st : KahnState wl) : Prop where
  nodup : (st.result ++ wl.elems st.work).Nodup
  subset : ∀ a ∈ st.result ++ wl.elems st.work, a ∈ nodes
  degree : ∀ b ∈ nodes,
    st.inDegree b = ∑ a ∈ nodes.toFinset \ st.result.toFinset, ((succ a).count b : ℤ)
  settled : ∀ b ∈ nodes, b ∈ st.result ++ wl.elems st.work ↔ st.inDegree b = 0
  popped : PoppedInOrder wl nodes succ st.result

/-- What the algorithm returns. -/
structure KahnResult (result : List α) : Prop where
  nodup : result.Nodup
  subset : ∀ a ∈ result, a ∈ nodes
  complete : ∀ b, Available nodes succ result b → False
  popped : PoppedInOrder wl nodes succ result

end

variable {wl} {nodes : List α} {succ : α → List α}

omit [DecidableEq α] in
theorem append_singleton_eq_split {l l₁ l₂ : List α} {a b : α} (h : l ++ [b] = l₁ ++ a :: l₂) :
    (∃ l₂', l₂ = l₂' ++ [b] ∧ l = l₁ ++ a :: l₂') ∨ (l₂ = [] ∧ l = l₁ ∧ a = b) := by
  rcases List.eq_nil_or_concat l₂ with rfl | ⟨l₂', c, rfl⟩
  · obtain ⟨hl, hab⟩ := List.append_inj' h rfl
    exact Or.inr ⟨rfl, hl, by simpa using hab.symm⟩
  · have h' : l ++ [b] = (l₁ ++ a :: l₂') ++ [c] := by simpa using h
    obtain ⟨hl, hbc⟩ := List.append_inj' h' rfl
    obtain rfl : b = c := by simpa using hbc
    exact Or.inl ⟨l₂', by simp, hl⟩

variable {st : KahnState wl}

section
variable (hin : SourcesIn nodes succ)
include hin

theorem KahnInv.degree_eq_zero_iff (h : KahnInv wl nodes succ st)
    {b : α} (hb : b ∈ nodes) : st.inDegree b = 0 ↔ ∀ a, Edge succ a b → a ∈ st.result := by
  rw [h.degree b hb, Finset.sum_eq_zero_iff_of_nonneg (fun a _ => Int.natCast_nonneg _)]
  constructor
  · intro hzero a hab
    by_contra ha
    have hmem : a ∈ nodes.toFinset \ st.result.toFinset := by
      rw [Finset.mem_sdiff, List.mem_toFinset, List.mem_toFinset]
      exact ⟨hin a b hab, ha⟩
    have := List.count_pos_iff.mpr (show b ∈ succ a from hab)
    have := hzero a hmem
    omega
  · intro hall a ha
    rw [Finset.mem_sdiff, List.mem_toFinset, List.mem_toFinset] at ha
    have hcount : (succ a).count b = 0 := List.count_eq_zero.mpr fun hab => ha.2 (hall a hab)
    rw [hcount, Nat.cast_zero]

theorem KahnInv.mem_work_iff (h : KahnInv wl nodes succ st) (b : α) :
    b ∈ wl.elems st.work ↔ Available nodes succ st.result b := by
  have hdisj := List.nodup_append.mp h.nodup
  constructor
  · intro hb
    have hbn : b ∈ nodes := h.subset b (List.mem_append_right _ hb)
    refine ⟨hbn, fun hres => hdisj.2.2 b hres b hb rfl, ?_⟩
    rw [← h.degree_eq_zero_iff hin hbn, ← h.settled b hbn]
    exact List.mem_append_right _ hb
  · rintro ⟨hbn, hres, hpred⟩
    have hset := (h.settled b hbn).mpr ((h.degree_eq_zero_iff hin hbn).mpr hpred)
    exact (List.mem_append.mp hset).resolve_left hres

/-- One turn of the main loop keeps the invariant. -/
theorem KahnInv.step (htarget : ∀ a b, Edge succ a b → b ∈ nodes)
    (h : KahnInv wl nodes succ st) {node : α} {work : wl.Carrier}
    (hpop : wl.pop st.work = some (node, work)) : KahnInv wl nodes succ
      (relax wl (succ node) { st with work := work, result := st.result ++ [node] }) := by
  have hperm := wl.pop_some st.work node work hpop
  have hnodeWork : node ∈ wl.elems st.work := hperm.mem_iff.mpr List.mem_cons_self
  have hnode : node ∈ nodes := h.subset node (List.mem_append_right _ hnodeWork)
  have hnodeRes : node ∉ st.result := ((h.mem_work_iff hin node).mp hnodeWork).2.1
  have hnodeMem : node ∈ nodes.toFinset \ st.result.toFinset := by
    rw [Finset.mem_sdiff, List.mem_toFinset, List.mem_toFinset]
    exact ⟨hnode, hnodeRes⟩
  -- the edges out of `node` are among those counted by the in-degrees
  have hle : ∀ a ∈ nodes, ((succ node).count a : ℤ) ≤ st.inDegree a := by
    intro a ha
    rw [h.degree a ha]
    exact Finset.single_le_sum (f := fun x => ((succ x).count a : ℤ))
      (fun x _ => Int.natCast_nonneg _) hnodeMem
  have hres := relax_result wl (succ node)
    { st with work := work, result := st.result ++ [node] }
  obtain ⟨hdeg, new, hnewNodup, hnew, hnewPerm⟩ := relax_spec wl (succ node)
    { st with work := work, result := st.result ++ [node] }
    (fun a ha => hle a (htarget node a ha))
  have hall : (st.result ++ [node] ++ (new ++ wl.elems work)).Perm
      (new ++ (st.result ++ wl.elems st.work)) := by
    have h₁ : (st.result ++ [node] ++ (new ++ wl.elems work)).Perm
        (new ++ (st.result ++ [node] ++ wl.elems work)) := by
      rw [← List.append_assoc, ← List.append_assoc new]
      exact (List.perm_append_comm).append_right _
    refine h₁.trans (List.Perm.append_left new ?_)
    rw [List.append_assoc, List.singleton_append]
    exact (hperm.symm).append_left st.result
  have hallPerm : ((relax wl (succ node)
      { st with work := work, result := st.result ++ [node] }).result ++
      wl.elems (relax wl (succ node)
        { st with work := work, result := st.result ++ [node] }).work).Perm
      (new ++ (st.result ++ wl.elems st.work)) := by
    rw [hres]
    exact (hnewPerm.append_left _).trans hall
  -- a pushed vertex still had incoming edges, so it was not settled before
  have hfresh : ∀ a ∈ new, a ∉ st.result ++ wl.elems st.work := by
    intro a ha hold
    obtain ⟨hmem, heq⟩ := (hnew a).mp ha
    have hzero := (h.settled a (htarget node a hmem)).mp hold
    have := List.count_pos_iff.mpr hmem
    dsimp only at heq
    omega
  refine ⟨?_, ?_, ?_, ?_, ?_⟩
  · rw [hallPerm.nodup_iff, List.nodup_append]
    exact ⟨hnewNodup, h.nodup, fun a ha b hb hab => hfresh a ha (hab ▸ hb)⟩
  · intro a ha
    rw [hallPerm.mem_iff, List.mem_append] at ha
    rcases ha with ha | ha
    · exact htarget node a ((hnew a).mp ha).1
    · exact h.subset a ha
  · intro b hb
    rw [hdeg, hres]
    have hsdiff : nodes.toFinset \ (st.result ++ [node]).toFinset
        = (nodes.toFinset \ st.result.toFinset).erase node := by
      ext x
      simp only [Finset.mem_sdiff, List.mem_toFinset, List.mem_append, List.mem_singleton,
        Finset.mem_erase]
      tauto
    have hsum := Finset.add_sum_erase (nodes.toFinset \ st.result.toFinset)
      (fun a => ((succ a).count b : ℤ)) hnodeMem
    rw [hsdiff]
    dsimp only at hsum ⊢
    rw [h.degree b hb, ← hsum]
    ring
  · intro b hb
    rw [hallPerm.mem_iff, List.mem_append, h.settled b hb, hnew, hdeg]
    dsimp only
    have := hle b hb
    constructor
    · rintro (⟨_, heq⟩ | heq)
      · omega
      · omega
    · intro heq
      by_cases hmem : b ∈ succ node
      · exact Or.inl ⟨hmem, by omega⟩
      · rw [List.count_eq_zero.mpr hmem] at heq
        exact Or.inr (by simpa using heq)
  · intro l₁ a l₂ heq
    rw [hres] at heq
    rcases append_singleton_eq_split heq with ⟨l₂', _, hold⟩ | ⟨_, hold, rfl⟩
    · exact h.popped l₁ a l₂' hold
    · subst hold
      exact ⟨st.work, work, hpop, h.mem_work_iff hin⟩

theorem kahnLoop_spec (htarget : ∀ a b, Edge succ a b → b ∈ nodes) (fuel : ℕ) :
    ∀ st : KahnState wl, KahnInv wl nodes succ st → nodes.length ≤ fuel + st.result.length →
      KahnInv wl nodes succ (kahnLoop wl succ fuel st) ∧
        wl.elems (kahnLoop wl succ fuel st).work = [] := by
  induction fuel with
  | zero =>
    intro st h hfuel
    refine ⟨h, ?_⟩
    -- the result already has as many vertices as there are
    have hle := (h.nodup.subperm h.subset).length_le
    rw [List.length_append] at hle
    exact List.eq_nil_of_length_eq_zero (by rw [kahnLoop]; omega)
  | succ fuel ih =>
    intro st h hfuel
    rw [kahnLoop]
    cases hpop : wl.pop st.work with
    | none => exact ⟨h, wl.pop_none st.work hpop⟩
    | some r =>
      obtain ⟨node, work⟩ := r
      refine ih _ (h.step hin htarget hpop) ?_
      rw [relax_result, List.length_append, List.length_singleton]
      omega

end

theorem result_prefix_kahnLoop (succ : α → List α) (fuel : ℕ) (st : KahnState wl) :
    st.result <+: (kahnLoop wl succ fuel st).result := by
  induction fuel generalizing st with
  | zero => exact List.prefix_refl _
  | succ fuel ih =>
    rw [kahnLoop]
    cases wl.pop st.work with
    | none => exact List.prefix_refl _
    | some popped =>
      obtain ⟨node, work⟩ := popped
      refine List.IsPrefix.trans ?_ (ih _)
      rw [relax_result]
      exact List.prefix_append st.result [node]

omit [DecidableEq α] in
theorem initialWork_perm (inDegree : α → ℤ) (l : List α) (w : wl.Carrier) :
    (wl.elems (l.foldl (fun work a => if inDegree a = 0 then wl.push a work else work) w)).Perm
      (l.filter (fun a => inDegree a = 0) ++ wl.elems w) := by
  induction l generalizing w with
  | nil => exact List.Perm.refl _
  | cons a l ih =>
    rw [List.foldl_cons]
    refine (ih _).trans ?_
    by_cases ha : inDegree a = 0
    · rw [if_pos ha, List.filter_cons_of_pos (by simpa using ha)]
      exact ((wl.push_perm a w).append_left _).trans List.perm_middle
    · rw [if_neg ha, List.filter_cons_of_neg (by simpa using ha)]

variable {inDegree : α → ℤ}

/-- The loop starts in its invariant. -/
theorem KahnInput.init (h : KahnInput nodes succ inDegree) : KahnInv wl nodes succ
      { inDegree := inDegree, work := initialWork wl inDegree nodes, result := [] } := by
  have hperm := initialWork_perm inDegree nodes wl.empty
  rw [wl.elems_empty, List.append_nil] at hperm
  refine ⟨?_, ?_, ?_, ?_, ?_⟩
  · rw [List.nil_append]
    exact hperm.nodup_iff.mpr (h.nodup.filter _)
  · intro a ha
    rw [List.nil_append] at ha
    exact List.mem_of_mem_filter (hperm.mem_iff.mp ha)
  · intro b hb
    simpa using h.degree b hb
  · intro b hb
    rw [List.nil_append]
    refine hperm.mem_iff.trans ?_
    simp [hb]
  · intro l₁ a l₂ heq
    exact absurd heq.symm (by simp)

/-- What Kahn's algorithm returns, whatever the worklist. -/
theorem kahn_spec (h : KahnInput nodes succ inDegree) :
    KahnResult wl nodes succ (kahn wl nodes succ inDegree) := by
  obtain ⟨hinv, hempty⟩ := kahnLoop_spec h.source h.target nodes.length
    { inDegree := inDegree, work := initialWork wl inDegree nodes, result := [] }
    h.init (by simp)
  have hnodup := hinv.nodup
  have hsubset := hinv.subset
  rw [hempty, List.append_nil] at hnodup hsubset
  refine ⟨hnodup, hsubset, fun b hb => ?_, hinv.popped⟩
  have hwork := (hinv.mem_work_iff h.source b).mpr hb
  rw [hempty] at hwork
  exact List.not_mem_nil hwork

/-! ## Consequences -/

variable {result : List α}

section
variable (h : KahnResult wl nodes succ result)
include h

omit [DecidableEq α] in
/-- Each vertex of a result was available when it was appended. -/
theorem KahnResult.available {l₁ l₂ : List α} {a : α}
    (heq : result = l₁ ++ a :: l₂) : Available nodes succ l₁ a := by
  obtain ⟨w, w', hpop, hw⟩ := h.popped l₁ a l₂ heq
  exact (hw a).mp ((wl.pop_some w a w' hpop).mem_iff.mpr List.mem_cons_self)

theorem KahnResult.idxOf_lt {a b : α} (hedge : Edge succ a b)
    (hb : b ∈ result) : result.idxOf a < result.idxOf b := by
  obtain ⟨l₁, l₂, rfl⟩ := List.append_of_mem hb
  have havail := h.available rfl
  have ha : a ∈ l₁ := havail.2.2 a hedge
  rw [List.idxOf_append_of_mem ha, List.idxOf_append_of_notMem havail.2.1]
  have := List.idxOf_lt_length_of_mem ha
  omega

theorem KahnResult.mem_of_acyclic (hin : SourcesIn nodes succ)
    (htarget : ∀ a b, Edge succ a b → b ∈ nodes) (hacyc : Acyclic succ) :
    ∀ a ∈ nodes, a ∈ result := by
  by_contra! hmiss
  obtain ⟨a, ha, hares⟩ := hmiss
  let pred : α → List α := fun b => nodes.filter fun a => b ∈ succ a
  have hpred : ∀ b a, Edge pred b a ↔ Edge succ a b := by
    intro b a
    simp only [Edge, pred, List.mem_filter, decide_eq_true_eq]
    exact ⟨fun h => h.2, fun h => ⟨hin a b h, h⟩⟩
  have hacyc' : Acyclic pred := hacyc.of_reverse fun b a hba => (hpred b a).mp hba
  have hsource : SourcesIn nodes pred := fun b a hba => htarget a b ((hpred b a).mp hba)
  -- a missing vertex none of whose predecessors is missing is available
  obtain ⟨b, ⟨hb, hbres⟩, hmin⟩ :=
    hacyc'.exists_sink hsource (P := fun x => x ∈ nodes ∧ x ∉ result) ⟨ha, hares⟩
  refine h.complete b ⟨hb, hbres, fun c hcb => ?_⟩
  by_contra hc
  exact hmin c ((hpred b c).mpr hcb) ⟨hin c b hcb, hc⟩

/-- A complete result shows that the graph is acyclic. -/
theorem KahnResult.acyclic
    (htarget : ∀ a b, Edge succ a b → b ∈ nodes) (hall : ∀ a ∈ nodes, a ∈ result) :
    Acyclic succ := by
  intro a hcycle
  have hlt : ∀ b, TransGen (Edge succ) a b → result.idxOf a < result.idxOf b := by
    intro b hab
    induction hab with
    | single hab => exact h.idxOf_lt hab (hall _ (htarget _ _ hab))
    | tail _ hbc ih => exact ih.trans (h.idxOf_lt hbc (hall _ (htarget _ _ hbc)))
  exact lt_irrefl _ (hlt a hcycle)

theorem KahnResult.length_eq_iff_acyclic
    (hnodup : nodes.Nodup) (hin : SourcesIn nodes succ) (htarget : ∀ a b, Edge succ a b → b ∈ nodes) :
    result.length = nodes.length ↔ Acyclic succ := by
  constructor
  · intro hlen
    have hperm : result.Perm nodes :=
      (h.nodup.subperm h.subset).perm_of_length_le hlen.ge
    exact h.acyclic htarget fun a ha => hperm.mem_iff.mpr ha
  · intro hacyc
    have hle := (hnodup.subperm (h.mem_of_acyclic hin htarget hacyc)).length_le
    exact le_antisymm (h.nodup.subperm h.subset).length_le hle

end

/-! ## Graphs given by a list of edges -/

theorem sum_countP_eq {β : Type*} (s : Finset α) (f : β → α) (q : β → Bool) (l : List β)
    (hl : ∀ x ∈ l, f x ∈ s) :
    ∑ a ∈ s, ((l.countP fun x => decide (f x = a) && q x : ℕ) : ℤ) = (l.countP q : ℕ) := by
  induction l with
  | nil => simp
  | cons x l ih =>
    have hx : f x ∈ s := hl x List.mem_cons_self
    have ih := ih fun y hy => hl y (List.mem_cons_of_mem x hy)
    simp only [List.countP_cons, Nat.cast_add]
    rw [Finset.sum_add_distrib, ih]
    congr 1
    rw [Finset.sum_eq_single (f x)]
    · simp
    · intro a _ hne
      simp [Ne.symm hne]
    · exact fun h => absurd hx h

theorem KahnInput.of_pairs {β : Type*} {pairs : List β} {source target : β → α}
    (hnodup : nodes.Nodup) (hsource : ∀ p ∈ pairs, source p ∈ nodes)
    (htarget : ∀ p ∈ pairs, target p ∈ nodes)
    (hsucc : ∀ a, succ a = (pairs.filter fun p => source p = a).map target)
    (hdegree : ∀ b, inDegree b = (pairs.countP fun p => target p = b : ℕ)) :
    KahnInput nodes succ inDegree where
  nodup := hnodup
  source a b hab := by
    rw [hsucc] at hab
    obtain ⟨p, hp, -⟩ := List.mem_map.mp hab
    rw [List.mem_filter, decide_eq_true_eq] at hp
    exact hp.2 ▸ hsource p hp.1
  target a b hab := by
    unfold Edge at hab
    rw [hsucc] at hab
    obtain ⟨p, hp, rfl⟩ := List.mem_map.mp hab
    exact htarget p (List.mem_filter.mp hp).1
  degree b _ := by
    have hcount : ∀ a, (succ a).count b
        = pairs.countP fun p => decide (source p = a) && decide (target p = b) := by
      intro a
      rw [hsucc, List.count, List.countP_map, List.countP_filter]
      refine List.countP_congr fun p _ => ?_
      simp [and_comm]
    rw [hdegree]
    simp only [hcount]
    exact (sum_countP_eq nodes.toFinset source (fun p => decide (target p = b)) pairs
      fun p hp => List.mem_toFinset.mpr (hsource p hp)).symm

end FiniteGraph
