import Mathlib.Tactic

/-!
# Scanners

A scanner goes through a list and keeps a state. `trace` is the list, each item with the state
before it.
-/

namespace OmnibaseCore.Scan

variable {σ τ α : Type} {step : σ → α → σ} {s : σ} {l l' : List α}

/-- The items, each with the state before it. -/
def trace (step : σ → α → σ) : σ → List α → List (σ × α)
  | _, [] => []
  | s, a :: rest => (s, a) :: trace step (step s a) rest

/-- The items that a test keeps, which also looks at the state. -/
def kept (step : σ → α → σ) (keep : σ → α → Bool) (s : σ) (l : List α) : List α :=
  ((trace step s l).filter fun e => keep e.1 e.2).map Prod.snd

section
variable (step : σ → α → σ)

theorem trace_cons (s : σ) (a : α) (l : List α) :
    trace step s (a :: l) = (s, a) :: trace step (step s a) l := rfl

theorem map_snd_trace (s : σ) (l : List α) :
    (trace step s l).map Prod.snd = l := by
  induction l generalizing s with
  | nil => rfl
  | cons a l ih => rw [trace_cons, List.map_cons, ih]

theorem length_trace (s : σ) (l : List α) :
    (trace step s l).length = l.length := by
  conv_rhs => rw [← map_snd_trace step s l, List.length_map]

theorem trace_append (s : σ) (l l' : List α) :
    trace step s (l ++ l') = trace step s l ++ trace step (l.foldl step s) l' := by
  induction l generalizing s with
  | nil => rfl
  | cons a l ih =>
    rw [List.cons_append, trace_cons, trace_cons, ih, List.cons_append, List.foldl_cons]

theorem kept_append (keep : σ → α → Bool) (s : σ) (l l' : List α) :
    kept step keep s (l ++ l') = kept step keep s l ++ kept step keep (l.foldl step s) l' := by
  unfold kept
  rw [trace_append, List.filter_append, List.map_append]

end

variable {keep : σ → α → Bool}

theorem kept_cons_of_pos {a : α} (h : keep s a = true) :
    kept step keep s (a :: l) = a :: kept step keep (step s a) l := by
  unfold kept
  rw [trace_cons, List.filter_cons, if_pos h, List.map_cons]

theorem kept_cons_of_neg {a : α} (h : keep s a = false) :
    kept step keep s (a :: l) = kept step keep (step s a) l := by
  unfold kept
  rw [trace_cons, List.filter_cons_of_neg (by simpa using h)]

/-- What is kept is read in the states that it was read in. -/
theorem trace_kept (hkeep : ∀ s a, keep s a = false → step s a = s) (s : σ) (l : List α) :
    trace step s (kept step keep s l) = (trace step s l).filter fun e => keep e.1 e.2 := by
  induction l generalizing s with
  | nil => rfl
  | cons a l ih =>
    rw [trace_cons]
    cases hka : keep s a with
    | true => rw [kept_cons_of_pos hka, trace_cons, ih, List.filter_cons, if_pos hka]
    | false =>
      rw [kept_cons_of_neg hka, hkeep s a hka, ih, List.filter_cons_of_neg (by simpa using hka)]

theorem kept_kept {keep keep' : σ → α → Bool}
    (hkeep : ∀ s a, keep s a = false → step s a = s)
    (hle : ∀ s a, keep' s a = true → keep s a = true) (s : σ) (l : List α) :
    kept step keep' s (kept step keep s l) = kept step keep' s l := by
  have htrace := trace_kept hkeep s l
  unfold kept at htrace ⊢
  rw [htrace, List.filter_filter]
  congr 1
  apply List.filter_congr
  intro e _
  rw [Bool.eq_iff_iff, Bool.and_eq_true]
  exact ⟨And.left, fun h => ⟨h, hle e.1 e.2 h⟩⟩

/-- A scanner that steps as the image of another one does, everywhere on a list. -/
theorem trace_map {step' : τ → α → τ} {f : τ → σ} {t : τ}
    (h : ∀ e ∈ trace step' t l, step (f e.1) e.2 = f (step' e.1 e.2)) :
    trace step (f t) l = (trace step' t l).map fun e => (f e.1, e.2) := by
  induction l generalizing t with
  | nil => rfl
  | cons a l ih =>
    rw [trace_cons, List.forall_mem_cons] at h
    rw [trace_cons, trace_cons, List.map_cons, h.1, ih h.2]

theorem foldl_map {step' : τ → α → τ} {f : τ → σ} {t : τ}
    (h : ∀ e ∈ trace step' t l, step (f e.1) e.2 = f (step' e.1 e.2)) :
    l.foldl step (f t) = f (l.foldl step' t) := by
  induction l generalizing t with
  | nil => rfl
  | cons a l ih =>
    rw [trace_cons, List.forall_mem_cons] at h
    rw [List.foldl_cons, List.foldl_cons, h.1, ih h.2]

/-- Where a test fails, it fails for a first time. -/
theorem exists_first_of_trace {P : σ × α → Prop} (h : ¬ ∀ e ∈ trace step s l, P e) :
    ∃ before a rest, l = before ++ a :: rest ∧ (∀ e ∈ trace step s before, P e) ∧
      ¬ P (before.foldl step s, a) := by
  induction l generalizing s with
  | nil => exact absurd (fun e he => absurd he List.not_mem_nil) h
  | cons a l ih =>
    rw [trace_cons, List.forall_mem_cons] at h
    by_cases ha : P (s, a)
    · rcases ih (fun hall => h ⟨ha, hall⟩) with ⟨before, b, rest, rfl, hbefore, hb⟩
      refine ⟨a :: before, b, rest, rfl, ?_, hb⟩
      rw [trace_cons, List.forall_mem_cons]
      exact ⟨ha, hbefore⟩
    · exact ⟨[], a, l, rfl, fun e he => absurd he List.not_mem_nil, ha⟩

end OmnibaseCore.Scan
