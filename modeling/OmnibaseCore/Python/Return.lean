import OmnibaseCore.Python.Basic

/-!
# Functions that return early

The body of a function goes to its end, returns on the way, or raises. A loop in such a body goes
from state to state.
-/

namespace OmnibaseCore

/-- How a body is left before its end. -/
inductive Exit (ρ : Type)
  | returned (result : ρ)
  | raised (e : PyException)

variable {ρ α β σ ε : Type}

/-- A call of the function with this body. -/
def Exit.run : Except (Exit ρ) ρ → Except PyException ρ
  | .ok result => .ok result
  | .error (.returned result) => .ok result
  | .error (.raised e) => .error e

/-- A call of another function in a body. -/
def Exit.call : Except PyException α → Except (Exit ρ) α
  | .ok a => .ok a
  | .error e => .error (.raised e)

/-- `return result`. -/
def Exit.return_ (result : ρ) : Except (Exit ρ) α := .error (.returned result)

theorem Exit.run_eq_ok_iff {body : Except (Exit ρ) ρ} {result : ρ} :
    Exit.run body = .ok result ↔ body = .ok result ∨ body = .error (.returned result) := by
  unfold Exit.run
  cases body with
  | ok r => simp
  | error exit => cases exit <;> simp

theorem Exit.call_eq_ok_iff {x : Except PyException α} {a : α} :
    (Exit.call x : Except (Exit ρ) α) = .ok a ↔ x = .ok a := by
  unfold Exit.call
  cases x <;> simp

theorem Exit.call_ne_returned {x : Except PyException α} {result : ρ} :
    Exit.call x ≠ .error (.returned result) := by
  unfold Exit.call
  cases x <;> simp

variable {e : ε}

theorem bind_eq_error {x : Except ε α} {f : α → Except ε β} (h : x >>= f = .error e) :
    x = .error e ∨ ∃ a, x = .ok a ∧ f a = .error e := by
  cases x with
  | error e' => exact Or.inl (congrArg Except.error (Except.error.inj h))
  | ok a => exact Or.inr ⟨a, rfl, h⟩

section
variable {step : σ → β → Except ε σ} {l : List β} {s s' : σ}

theorem exists_of_foldlM_error {e : ε} (h : l.foldlM step s = .error e) :
    ∃ b ∈ l, ∃ s, step s b = .error e := by
  induction l generalizing s with
  | nil => exact nomatch h
  | cons b l ih =>
    rw [List.foldlM_cons] at h
    rcases bind_eq_error h with h | ⟨next, -, h⟩
    · exact ⟨b, List.mem_cons_self, s, h⟩
    · obtain ⟨b', hb', hstep⟩ := ih h
      exact ⟨b', List.mem_cons_of_mem b hb', hstep⟩

theorem invariant_foldlM {I : σ → Prop}
    (hstep : ∀ s, ∀ b ∈ l, ∀ s', step s b = .ok s' → I s → I s') (hs : I s)
    (h : l.foldlM step s = .ok s') : I s' := by
  induction l generalizing s with
  | nil =>
    rw [← Except.ok.inj h]
    exact hs
  | cons b l ih =>
    rw [List.foldlM_cons] at h
    obtain ⟨next, hnext, h⟩ := bind_eq_ok h
    apply ih (fun s b hb => hstep s b (List.mem_cons_of_mem _ hb)) _ h
    exact hstep s b List.mem_cons_self next hnext hs

/-- If a state is only clean after a clean state and a good turn, a clean end means that all turns
were good. -/
theorem forall_of_foldlM {C : σ → Prop} {G : β → Prop}
    (hstep : ∀ s b s', step s b = .ok s' → C s' → C s ∧ G b)
    (h : l.foldlM step s = .ok s') (hs' : C s') : C s ∧ ∀ b ∈ l, G b := by
  induction l generalizing s with
  | nil =>
    rw [Except.ok.inj h]
    exact ⟨hs', fun b hb => absurd hb List.not_mem_nil⟩
  | cons b l ih =>
    rw [List.foldlM_cons] at h
    obtain ⟨next, hnext, h⟩ := bind_eq_ok h
    obtain ⟨hclean, hgood⟩ := ih h
    obtain ⟨hs, hb⟩ := hstep s b next hnext hclean
    exact ⟨hs, List.forall_mem_cons.mpr ⟨hb, hgood⟩⟩

/-- If a turn only collects what it finds, all that has been collected has been found. -/
theorem exists_of_mem_foldlM {γ : Type} {f : σ → List γ} {F : β → γ → Prop}
    (hstep : ∀ s b s', step s b = .ok s' → ∀ c ∈ f s', c ∈ f s ∨ F b c)
    (h : l.foldlM step s = .ok s') {c : γ} (hc : c ∈ f s') : c ∈ f s ∨ ∃ b ∈ l, F b c := by
  induction l generalizing s with
  | nil =>
    rw [Except.ok.inj h]
    exact Or.inl hc
  | cons b l ih =>
    rw [List.foldlM_cons] at h
    obtain ⟨next, hnext, h⟩ := bind_eq_ok h
    rcases ih h with hnext' | ⟨b', hb', hfinds⟩
    · rcases hstep s b next hnext c hnext' with hs | hfinds
      · exact Or.inl hs
      · exact Or.inr ⟨b, List.mem_cons_self, hfinds⟩
    · exact Or.inr ⟨b', List.mem_cons_of_mem b hb', hfinds⟩

end

variable {l : List β}

theorem exists_of_forM_error {f : β → Except ε Unit} (h : l.forM f = .error e) :
    ∃ b ∈ l, f b = .error e := by
  induction l with
  | nil => exact nomatch h
  | cons b l ih =>
    have hfirst : (f b >>= fun _ => l.forM f) = .error e := h
    rcases bind_eq_error hfirst with hb | ⟨_, -, hrest⟩
    · exact ⟨b, List.mem_cons_self, hb⟩
    · obtain ⟨b', hb', hraises⟩ := ih hrest
      exact ⟨b', List.mem_cons_of_mem b hb', hraises⟩

variable {γ : Type}

variable {f : β → Except ε γ}

theorem exists_of_mapM_error (h : l.mapM f = .error e) :
    ∃ b ∈ l, f b = .error e := by
  induction l with
  | nil => exact nomatch h
  | cons b l ih =>
    rw [List.mapM_cons] at h
    rcases bind_eq_error h with hb | ⟨c, -, h⟩
    · exact ⟨b, List.mem_cons_self, hb⟩
    · rcases bind_eq_error h with hrest | ⟨cs, -, h⟩
      · obtain ⟨b', hb', hraises⟩ := ih hrest
        exact ⟨b', List.mem_cons_of_mem b hb', hraises⟩
      · exact nomatch h

variable {l' : List γ}

theorem exists_mem_of_mapM_ok (h : l.mapM f = .ok l') : ∀ b ∈ l, ∃ c ∈ l', f b = .ok c := by
  induction l generalizing l' with
  | nil => exact fun _ hb => nomatch hb
  | cons b l ih =>
    rw [List.mapM_cons] at h
    obtain ⟨c, hc, h⟩ := bind_eq_ok h
    obtain ⟨cs, hcs, h⟩ := bind_eq_ok h
    rw [← Except.ok.inj h, List.forall_mem_cons]
    refine ⟨⟨c, List.mem_cons_self, hc⟩, fun b' hb' => ?_⟩
    obtain ⟨c', hc', hf⟩ := ih hcs b' hb'
    exact ⟨c', List.mem_cons_of_mem c hc', hf⟩

theorem exists_mapM_iff :
    (∃ l', l.mapM f = .ok l') ↔ ∀ b ∈ l, ∃ c, f b = .ok c := by
  constructor
  · rintro ⟨l', h⟩ b hb
    obtain ⟨c, -, hc⟩ := exists_mem_of_mapM_ok h b hb
    exact ⟨c, hc⟩
  · intro h
    cases hl : l.mapM f with
    | ok l' => exact ⟨l', rfl⟩
    | error e =>
      obtain ⟨b, hb, hraises⟩ := exists_of_mapM_error hl
      obtain ⟨c, hc⟩ := h b hb
      rw [hc] at hraises
      exact nomatch hraises

theorem mapM_ok_of_imp {γ δ : Type} {f : β → Except ε γ} {g : β → Except δ γ}
    {l' : List γ} (hfg : ∀ b ∈ l, ∀ c, f b = .ok c → g b = .ok c) (h : l.mapM f = .ok l') :
    l.mapM g = .ok l' := by
  induction l generalizing l' with
  | nil =>
    cases h
    rfl
  | cons b l ih =>
    rw [List.forall_mem_cons] at hfg
    rw [List.mapM_cons] at h ⊢
    obtain ⟨c, hc, h⟩ := bind_eq_ok h
    obtain ⟨cs, hcs, h⟩ := bind_eq_ok h
    rw [hfg.1 c hc, ih hfg.2 hcs]
    exact congrArg Except.ok (Except.ok.inj h)

theorem mapM_eq_ok_iff_map :
    l.mapM f = .ok l' ↔ (l.map fun b => (f b).toOption) = l'.map some := by
  have hcall : ∀ b c, (f b).toOption = some c ↔ f b = .ok c := by
    intro b c
    cases f b with
    | error e => exact ⟨fun h => (nomatch h), fun h => (nomatch h)⟩
    | ok c' => exact ⟨fun h => congrArg Except.ok (Option.some.inj h),
        fun h => congrArg some (Except.ok.inj h)⟩
  induction l generalizing l' with
  | nil => exact ⟨fun h => by cases h; rfl, fun h => by
      rw [List.map_nil, eq_comm, List.map_eq_nil_iff] at h
      rw [h]
      rfl⟩
  | cons b l ih =>
    rw [List.mapM_cons, List.map_cons, bind_eq_ok_iff]
    constructor
    · rintro ⟨c, hc, h⟩
      obtain ⟨cs, hcs, h⟩ := bind_eq_ok h
      rw [← Except.ok.inj h, List.map_cons, (hcall b c).mpr hc, ih.mp hcs]
    · intro h
      cases l' with
      | nil => exact nomatch h
      | cons c l' =>
        rw [List.map_cons, List.cons.injEq, hcall] at h
        exact ⟨c, h.1, bind_eq_ok_iff.mpr ⟨l', ih.mpr h.2, rfl⟩⟩

theorem exists_mapM_of_perm {l₁ l₂ : List β}
    (hperm : (l₁.map fun b => (f b).toOption).Perm (l₂.map fun b => (f b).toOption))
    (h : l₁.mapM f = .ok l') : ∃ l'', l₂.mapM f = .ok l'' ∧ l'.Perm l'' := by
  rw [mapM_eq_ok_iff_map] at h
  rw [h] at hperm
  refine ⟨(l₂.map fun b => (f b).toOption).filterMap id, ?_, ?_⟩
  · rw [mapM_eq_ok_iff_map]
    have hsome : ∀ o ∈ l₂.map fun b => (f b).toOption, o.isSome = true := by
      intro o ho
      obtain ⟨c, -, rfl⟩ := List.mem_map.mp (hperm.mem_iff.mpr ho)
      rfl
    generalize (l₂.map fun b => (f b).toOption) = results at hsome
    clear hperm
    induction results with
    | nil => rfl
    | cons o results ih =>
      rw [List.forall_mem_cons] at hsome
      obtain ⟨c, rfl⟩ := Option.isSome_iff_exists.mp hsome.1
      have hcons : (some c :: results).filterMap id = c :: results.filterMap id := rfl
      rw [hcons, List.map_cons, ← ih hsome.2]
  · have hfilter := hperm.filterMap id
    rw [List.filterMap_map] at hfilter
    have hid : List.filterMap (id ∘ some) l' = l' := List.filterMap_some
    rwa [hid] at hfilter

theorem exists_mapM_mapM_iff {γ δ : Type} {f : β → Except ε γ} {g : γ → Except ε δ} :
    (∃ l', l.mapM f = .ok l' ∧ ∃ l'', l'.mapM g = .ok l'') ↔
      ∀ b ∈ l, ∃ c, f b = .ok c ∧ ∃ d, g c = .ok d := by
  constructor
  · rintro ⟨l', hl', hg⟩ b hb
    obtain ⟨c, hc, hbc⟩ := exists_mem_of_mapM_ok hl' b hb
    exact ⟨c, hbc, exists_mapM_iff.mp hg c hc⟩
  · intro h
    obtain ⟨l', hl'⟩ := exists_mapM_iff.mpr fun b hb => (h b hb).imp fun c hc => hc.1
    refine ⟨l', hl', exists_mapM_iff.mpr fun c hc => ?_⟩
    obtain ⟨b, hb, hbc⟩ := exists_of_mapM_ok hl' c hc
    obtain ⟨c', hbc', hg⟩ := h b hb
    rw [hbc] at hbc'
    rwa [Except.ok.inj hbc']

/-- A loop over calls raises what the first call raises that does not return. -/
theorem mapM_eq_error {front back : List β} {b : β}
    (hfront : ∀ b ∈ front, ∃ c, f b = .ok c) (hb : f b = .error e) :
    (front ++ b :: back).mapM f = .error e := by
  induction front with
  | nil =>
    rw [List.nil_append, List.mapM_cons, hb]
    rfl
  | cons b' front ih =>
    rw [List.forall_mem_cons] at hfront
    obtain ⟨⟨c, hc⟩, hfront⟩ := hfront
    rw [List.cons_append, List.mapM_cons, hc, ih hfront]
    rfl

end OmnibaseCore
