import Mathlib.Tactic

/-!
# Last writer wins

A base value and a stack of entries, each of which may set the value: it is that of the last entry
that sets it.
-/

namespace OmnibaseCore

section
variable {α β : Type*}

def lastSet (base : α) (entries : List (Option α)) : α :=
  entries.foldl (fun value set => set.getD value) base

variable (base : α)

@[simp] theorem lastSet_nil : lastSet base [] = base := rfl

@[simp] theorem lastSet_cons (set : Option α) (entries : List (Option α)) :
    lastSet base (set :: entries) = lastSet (set.getD base) entries := rfl

variable (entries : List (Option α))

@[simp] theorem lastSet_concat (set : Option α) :
    lastSet base (entries ++ [set]) = set.getD (lastSet base entries) := by
  unfold lastSet
  rw [List.foldl_append]
  rfl

theorem lastSet_mem :
    lastSet base entries = base ∨ some (lastSet base entries) ∈ entries := by
  induction entries using List.reverseRecOn with
  | nil => exact Or.inl rfl
  | append_singleton entries set ih =>
    rw [lastSet_concat]
    cases set with
    | some value => exact Or.inr (by simp)
    | none =>
      rcases ih with h | h
      · exact Or.inl h
      · exact Or.inr (List.mem_append_left _ h)

/-- The last entry alone decides: where it sets nothing, the entries before it leave the base
value. -/
def LastDecides (base : α) (entries : List (Option α)) : Prop :=
  entries.getLastD none = none → lastSet base entries.dropLast = base

@[simp] theorem lastDecides_none_cons :
    LastDecides base (none :: entries) ↔ LastDecides base entries := by
  unfold LastDecides
  rw [List.getLastD_cons]
  cases entries with
  | nil => simp
  | cons set entries => rw [List.dropLast_cons_of_ne_nil (by simp), lastSet_cons, Option.getD_none]

theorem getLastD_getD_eq_lastSet_iff :
    (entries.getLastD none).getD base = lastSet base entries ↔ LastDecides base entries := by
  unfold LastDecides
  induction entries using List.reverseRecOn with
  | nil => simp
  | append_singleton entries set _ =>
    rw [lastSet_concat, List.dropLast_concat, List.getLastD_concat]
    cases set with
    | none => simp [eq_comm]
    | some value => simp

end

section
variable {α β : Type*} (names revokes : α → List β)

/-- An entry names it, and no entry behind it revokes it. -/
def Stands (entries : List α) (name : β) : Prop :=
  ∃ before entry after, entries = before ++ entry :: after ∧ name ∈ names entry ∧
    ∀ later ∈ after, name ∉ revokes later

variable {names revokes} {entries : List α} {name : β}

/-- What stands is not revoked by the last entry, if no entry revokes what it names. -/
theorem Stands.notMem_last (hdisjoint : ∀ entry, ∀ name ∈ names entry, name ∉ revokes entry)
    (default : α) (h : Stands names revokes entries name) :
    name ∉ revokes (entries.getLastD default) := by
  rcases h with ⟨before, entry, after, rfl, hnames, hafter⟩
  rcases List.eq_nil_or_concat after with rfl | ⟨rest, last, rfl⟩
  · rw [List.getLastD_concat]
    exact hdisjoint entry name hnames
  · rw [List.concat_eq_append] at hafter ⊢
    rw [← List.cons_append, ← List.append_assoc, List.getLastD_concat]
    exact hafter last (by simp)

theorem stands_cons_iff {entry : α} (hnames : names entry = []) :
    Stands names revokes (entry :: entries) name ↔ Stands names revokes entries name := by
  constructor
  · rintro ⟨before, other, after, hsplit, hname, hafter⟩
    cases before with
    | nil =>
      rw [List.nil_append, List.cons.injEq] at hsplit
      rw [← hsplit.1, hnames] at hname
      exact nomatch hname
    | cons first before =>
      rw [List.cons_append, List.cons.injEq] at hsplit
      exact ⟨before, other, after, hsplit.2, hname, hafter⟩
  · rintro ⟨before, other, after, rfl, hname, hafter⟩
    exact ⟨entry :: before, other, after, rfl, hname, hafter⟩

end

end OmnibaseCore
