import OmnibaseCore.Python.Basic

/-!
# Comparisons

The order comparisons `<`, `<=`, `>` and `>=` of tuples. The first items that differ decide, so
items behind them are not looked at; a comparison of items may raise.
-/

namespace PythonOrder

open OmnibaseCore

inductive OrderOp
  | lt
  | le
  | gt
  | ge

def OrderOp.holds {β : Type*} [LinearOrder β] : OrderOp → β → β → Bool
  | .lt, x, y => x < y
  | .le, x, y => x ≤ y
  | .gt, x, y => y < x
  | .ge, x, y => y ≤ x

abbrev Comparison (α : Type*) := OrderOp → α → α → Except PyException Bool

section
variable {α β : Type*} [DecidableEq α]

def comparePair (first : Comparison α) (second : Comparison β) : Comparison (α × β) :=
  fun op p q => if p.1 = q.1 then second op p.2 q.2 else first op p.1 q.1

/-- The comparisons of tuples of any length. If no items differ, then the lengths decide. -/
def compareTuple (item : Comparison α) : Comparison (List α)
  | op, a :: as, b :: bs => if a = b then compareTuple item op as bs else item op a b
  | op, as, bs => .ok (op.holds as.length bs.length)

end

/-! ## Comparisons and orders -/

section
variable {α β γ δ : Type*} [LinearOrder γ] [LinearOrder δ]

/-- The comparison of two values is that of their keys. Equal values have equal keys only. -/
structure Follows (compare : Comparison α) (key : α → γ) : Prop where
  injective : Function.Injective key
  eq : ∀ op a b, compare op a b = .ok (op.holds (key a) (key b))

@[simp] theorem holds_self (op : OrderOp) (x : γ) (y : δ) : op.holds x x = op.holds y y := by
  cases op <;> simp [OrderOp.holds]

theorem holds_congr {x y : γ} {x' y' : δ} (hlt : x < y ↔ x' < y') (hgt : y < x ↔ y' < x')
    (op : OrderOp) : op.holds x y = op.holds x' y' := by
  cases op with
  | lt => simp [OrderOp.holds, hlt]
  | le => simp [OrderOp.holds, ← not_lt, hgt]
  | gt => simp [OrderOp.holds, hgt]
  | ge => simp [OrderOp.holds, ← not_lt, hlt]

/-- Pairs are ordered lexicographically. -/
theorem follows_pair [DecidableEq α] {first : Comparison α} {second : Comparison β}
    {key : α → γ} {key' : β → δ} (hfirst : Follows first key) (hsecond : Follows second key') :
    Follows (comparePair first second) fun p => toLex (key p.1, key' p.2) where
  injective := by
    rintro ⟨a, b⟩ ⟨a', b'⟩ h
    have hkeys : key a = key a' ∧ key' b = key' b' := Prod.mk.inj (toLex.injective h)
    rw [hfirst.injective hkeys.1, hsecond.injective hkeys.2]
  eq := by
    rintro op ⟨a, b⟩ ⟨a', b'⟩
    unfold comparePair
    dsimp only
    split_ifs with ha
    · rw [hsecond.eq, ha]
      congr 1
      apply holds_congr <;> simp [Prod.Lex.toLex_lt_toLex]
    · have hne : key a ≠ key a' := fun h => ha (hfirst.injective h)
      rw [hfirst.eq]
      congr 1
      apply holds_congr <;> simp [Prod.Lex.toLex_lt_toLex, hne, hne.symm]

/-- Tuples are ordered lexicographically, with a shorter one first. -/
theorem follows_tuple [DecidableEq α] {item : Comparison α} {key : α → γ}
    (hitem : Follows item key) : Follows (compareTuple item) (List.map key) where
  injective := List.map_injective_iff.mpr hitem.injective
  eq := by
    intro op as bs
    induction as generalizing bs with
    | nil =>
      rw [compareTuple]
      · congr 1
        cases bs with
        | nil => exact holds_self op _ _
        | cons b bs => apply holds_congr <;> simp
      · simp
    | cons a as ih =>
      cases bs with
      | nil =>
        rw [compareTuple]
        · congr 1
          apply holds_congr <;> simp
        · simp
      | cons b bs =>
        rw [compareTuple, List.map_cons, List.map_cons]
        split_ifs with ha
        · rw [ih, ha]
          congr 1
          apply holds_congr <;> simp
        · have hne : key a ≠ key b := fun h => ha (hitem.injective h)
          rw [hitem.eq]
          congr 1
          apply holds_congr <;> simp [List.cons_lt_cons_iff, hne, hne.symm]

theorem compareTuple_map [DecidableEq α] [DecidableEq β] {f : α → β}
    (hf : Function.Injective f) (item : Comparison β) (op : OrderOp) (as bs : List α) :
    compareTuple item op (as.map f) (bs.map f) =
      compareTuple (fun op a b => item op (f a) (f b)) op as bs := by
  induction as generalizing bs with
  | nil => cases bs <;> simp [compareTuple]
  | cons a as ih =>
    cases bs with
    | nil => simp [compareTuple]
    | cons b bs => simp [compareTuple, ih, hf.eq_iff]

end

end PythonOrder
