import Mathlib.Tactic

/-!
# Archives

An archive is the list of what has been written to it, under names; a name is read as what was
written last under it. Everything can be read back exactly if writes under the same name agree
(`agree_iff`).
-/

namespace OmnibaseCore

variable {β γ : Type}

def lastWrite (writes : List (String × β)) (name : String) : Option β :=
  writes.reverse.lookup name

/-- Writes under the same name agree, as far as `g` sees. -/
def Agree (g : β → γ) (writes : List (String × β)) : Prop :=
  writes.Pairwise fun e e' => e.1 = e'.1 → g e.2 = g e'.2

theorem lookup_append (l l' : List (String × β)) (name : String) :
    (l ++ l').lookup name = (l.lookup name <|> l'.lookup name) := by
  induction l with
  | nil => rfl
  | cons e l ih =>
    rw [List.cons_append, List.lookup_cons, List.lookup_cons]
    cases name == e.1 with
    | true => rfl
    | false => exact ih

theorem lastWrite_append (writes writes' : List (String × β)) (name : String) :
    lastWrite (writes ++ writes') name = (lastWrite writes' name <|> lastWrite writes name) := by
  unfold lastWrite
  rw [List.reverse_append, lookup_append]

theorem lastWrite_concat (writes : List (String × β)) (e : String × β) (name : String) :
    lastWrite (writes ++ [e]) name = if name = e.1 then some e.2 else lastWrite writes name := by
  rw [lastWrite_append]
  show (List.lookup name [e] <|> _) = _
  by_cases hname : name = e.1
  · rw [List.lookup_cons, hname, BEq.rfl, if_pos rfl]
    rfl
  · rw [List.lookup_cons, beq_eq_false_iff_ne.mpr hname, if_neg hname]
    rfl

variable {writes : List (String × β)} {name : String}

theorem lastWrite_eq_none (h : ∀ e ∈ writes, e.1 ≠ name) : lastWrite writes name = none := by
  induction writes using List.reverseRecOn with
  | nil => rfl
  | append_singleton writes e ih =>
    rw [lastWrite_concat, if_neg (h e (by simp)).symm]
    exact ih fun e' he' => h e' (by simp [he'])

theorem lastWrite_append_left {writes writes' : List (String × β)} (h : ∀ e ∈ writes', e.1 ≠ name) :
    lastWrite (writes ++ writes') name = lastWrite writes name := by
  rw [lastWrite_append, lastWrite_eq_none h]
  rfl

theorem lastWrite_append_right {writes writes' : List (String × β)} (h : ∀ e ∈ writes, e.1 ≠ name) :
    lastWrite (writes ++ writes') name = lastWrite writes' name := by
  rw [lastWrite_append, lastWrite_eq_none h]
  cases lastWrite writes' name <;> rfl

theorem exists_lastWrite {e : String × β} (h : e ∈ writes) :
    ∃ b, lastWrite writes e.1 = some b ∧ (e.1, b) ∈ writes := by
  induction writes using List.reverseRecOn with
  | nil => exact absurd h List.not_mem_nil
  | append_singleton writes e' ih =>
    rw [lastWrite_concat]
    by_cases hname : e.1 = e'.1
    · exact ⟨e'.2, if_pos hname, by simp [hname]⟩
    · rw [if_neg hname]
      have hmem : e ∈ writes := by
        rcases List.mem_append.mp h with h | h
        · exact h
        · exact absurd (congrArg Prod.fst (List.mem_singleton.mp h)) hname
      obtain ⟨b, hb, hmem⟩ := ih hmem
      exact ⟨b, hb, List.mem_append_left _ hmem⟩

theorem lastWrite_map (f : β → γ) (writes : List (String × β)) (name : String) :
    lastWrite (writes.map fun e => (e.1, f e.2)) name = (lastWrite writes name).map f := by
  induction writes using List.reverseRecOn with
  | nil => rfl
  | append_singleton writes e ih =>
    rw [List.map_append, List.map_singleton, lastWrite_concat, lastWrite_concat, ih]
    split_ifs <;> rfl

/-- All that was written is read back, as far as `g` sees, exactly if writes under the same name
agree. -/
theorem agree_iff {g : β → γ} :
    Agree g writes ↔ ∀ e ∈ writes, (lastWrite writes e.1).map g = some (g e.2) := by
  induction writes using List.reverseRecOn with
  | nil => exact ⟨fun _ e he => absurd he List.not_mem_nil, fun _ => List.Pairwise.nil⟩
  | append_singleton writes e ih =>
    unfold Agree at ih ⊢
    rw [List.pairwise_append, ih]
    simp only [lastWrite_concat]
    constructor
    · rintro ⟨hback, -, hlast⟩ e' he'
      rcases List.mem_append.mp he' with he' | he'
      · split_ifs with hname
        · exact congrArg some (hlast e' he' e (by simp) hname).symm
        · exact hback e' he'
      · rw [List.mem_singleton.mp he', if_pos rfl]
        rfl
    · intro hback
      have hlast : ∀ e' ∈ writes, e'.1 = e.1 → g e'.2 = g e.2 := by
        intro e' he' hname
        have hread := hback e' (List.mem_append_left _ he')
        rw [if_pos hname] at hread
        exact (Option.some.inj hread).symm
      refine ⟨fun e' he' => ?_, List.pairwise_singleton _ _, fun e' he' e'' he'' => ?_⟩
      · by_cases hname : e'.1 = e.1
        · obtain ⟨b, hb, hmem⟩ := exists_lastWrite he'
          rw [hb, hlast e' he' hname]
          exact congrArg some (hlast (e'.1, b) hmem hname)
        · have hread := hback e' (List.mem_append_left _ he')
          rwa [if_neg hname] at hread
      · rw [List.mem_singleton.mp he'']
        exact hlast e' he'

end OmnibaseCore
