import Mathlib.Tactic

/-!
# Items with the items before them

`AtEach P l` says that every item of a list satisfies `P` given the items before it. Where `P` looks
at the items of one key only, it may be checked on each key's own items (`atEach_filter_iff`).
-/

namespace OmnibaseCore

section
variable {α κ : Type} {P : List α → α → Prop} {l : List α} {a : α}

/-- Every item satisfies `P` given the items before it. -/
def AtEach (P : List α → α → Prop) (l : List α) : Prop :=
  ∀ before a after, l = before ++ a :: after → P before a

@[simp]
theorem atEach_nil : AtEach P [] := by
  intro before a after h
  simp at h

theorem atEach_cons : AtEach P (a :: l) ↔ P [] a ∧ AtEach (fun before => P (a :: before)) l := by
  constructor
  · intro h
    exact ⟨h [] a l rfl, fun before b after hl => h (a :: before) b after (by simp [hl])⟩
  · rintro ⟨hfirst, hrest⟩ before b after hl
    cases before with
    | nil =>
      obtain ⟨rfl, -⟩ := List.cons.inj hl
      exact hfirst
    | cons c before =>
      obtain ⟨rfl, htail⟩ := List.cons.inj hl
      exact hrest before b after htail

theorem atEach_append_singleton : AtEach P (l ++ [a]) ↔ AtEach P l ∧ P l a := by
  constructor
  · intro h
    exact ⟨fun before b after hl => h before b (after ++ [a]) (by simp [hl]), h l a [] rfl⟩
  · rintro ⟨hinit, hlast⟩ before b after hl
    cases after using List.reverseRecOn with
    | nil =>
      obtain ⟨rfl, hb⟩ := List.append_inj' hl rfl
      obtain rfl : a = b := by simpa using hb
      exact hlast
    | append_singleton after c =>
      have hinit' : l ++ [a] = (before ++ b :: after) ++ [c] := by simpa using hl
      exact hinit before b after (List.append_inj' hinit' rfl).1

variable [DecidableEq κ]

/-- A condition on an item and the items of its key before it. -/
theorem atEach_filter_iff (key : α → κ) (l : List α) :
    AtEach (fun before a => P (before.filter (key · = key a)) a) l ↔
      ∀ k, AtEach P (l.filter (key · = k)) := by
  induction l using List.reverseRecOn with
  | nil => simp
  | append_singleton l a ih =>
    have hsplit : ∀ k, AtEach P ((l ++ [a]).filter (key · = k)) ↔
        AtEach P (l.filter (key · = k)) ∧ (key a = k → P (l.filter (key · = k)) a) := by
      intro k
      by_cases hk : key a = k
      · have hfilter : (l ++ [a]).filter (key · = k) = l.filter (key · = k) ++ [a] := by
          simp [hk]
        rw [hfilter, atEach_append_singleton]
        simp [hk]
      · simp [hk]
    rw [atEach_append_singleton, ih, forall_congr' hsplit, forall_and]
    simp

end

end OmnibaseCore
