import Mathlib.Tactic

/-!
# Slices

`l[:n]` and `l[n:]`, where a negative `n` counts from the end of the list, and the last items of a
log that is cut after every item (`keepLast_concat`).
-/

namespace OmnibaseCore

variable {α : Type}

def slicePlace (length : ℕ) (n : ℤ) : ℕ :=
  if n < 0 then (length + n).toNat else n.toNat

/-- `l[:n]`. -/
def sliceTo (l : List α) (n : ℤ) : List α := l.take (slicePlace l.length n)

/-- `l[n:]`. -/
def sliceFrom (l : List α) (n : ℤ) : List α := l.drop (slicePlace l.length n)

/-- The last items, `limit` of them at most. -/
def keepLast (limit : Option ℤ) (l : List α) : List α :=
  match limit with
  | none => l
  | some limit => l.drop (l.length - limit.toNat)

def cutOff (limit : Option ℤ) (l : List α) : List α :=
  match limit with
  | none => []
  | some limit => l.take (l.length - limit.toNat)

theorem cutOff_append_keepLast (limit : Option ℤ) (l : List α) :
    cutOff limit l ++ keepLast limit l = l := by
  cases limit with
  | none => rfl
  | some limit => exact List.take_append_drop _ l

theorem cutOff_eq_nil_iff {limit : Option ℤ} {l : List α} :
    cutOff limit l = [] ↔ ∀ n, limit = some n → l.length ≤ n.toNat := by
  cases limit with
  | none => simp [cutOff]
  | some limit =>
    simp only [cutOff, List.take_eq_nil_iff, Option.some.injEq, forall_eq']
    constructor
    · rintro (h | rfl)
      · omega
      · simp
    · omega

/-- One more item, and a cut. -/
theorem keepLast_concat (limit : ℤ) (l : List α) (a : α) :
    keepLast (some limit) (l ++ [a]) =
      let kept := keepLast (some limit) l ++ [a]
      if limit < kept.length then sliceFrom kept (kept.length - limit) else kept := by
  have hlength : (keepLast (some limit) l ++ [a]).length = min l.length limit.toNat + 1 := by
    simp [keepLast]
    omega
  have hdrop : keepLast (some limit) (l ++ [a]) =
      (keepLast (some limit) l ++ [a]).drop (min l.length limit.toNat + 1 - limit.toNat) := by
    show (l ++ [a]).drop ((l ++ [a]).length - limit.toNat) = _
    have hle : l.length - limit.toNat ≤ l.length := Nat.sub_le _ _
    show _ = (l.drop (l.length - limit.toNat) ++ [a]).drop _
    rw [← List.drop_append_of_le_length hle, List.drop_drop, List.length_append,
      List.length_singleton]
    congr 1
    omega
  dsimp only
  rw [hlength]
  split_ifs with hfull
  · rw [sliceFrom, slicePlace, hlength, hdrop]
    have hpos : ¬ ((min l.length limit.toNat + 1 : ℕ) : ℤ) - limit < 0 := by omega
    rw [if_neg hpos]
    by_cases hneg : limit < 0
    · -- a negative bound drops everything
      rw [List.drop_eq_nil_of_le, List.drop_eq_nil_of_le] <;> omega
    · congr 1
      omega
  · rw [hdrop]
    have hzero : min l.length limit.toNat + 1 - limit.toNat = 0 := by omega
    rw [hzero, List.drop_zero]

end OmnibaseCore
