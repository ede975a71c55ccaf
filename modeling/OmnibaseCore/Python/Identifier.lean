import OmnibaseCore.Python.Basic
import OmnibaseCore.Python.Text

/-!
# The order of identifiers

Identifiers are compared as numbers, their texts from left to right.
-/

namespace OmnibaseCore

/-- Two texts of which the first comes before the second at the first place where they differ. -/
def Precedes (l l' : List Char) : Prop :=
  ∃ common c c' rest rest', l = common ++ c :: rest ∧ l' = common ++ c' :: rest' ∧ c < c'

variable {l l' : List Char}

theorem Precedes.cons (h : Precedes l l') (c : Char) : Precedes (c :: l) (c :: l') := by
  obtain ⟨common, a, a', rest, rest', rfl, rfl, hlt⟩ := h
  exact ⟨c :: common, a, a', rest, rest', rfl, rfl, hlt⟩

section
variable (h : Precedes l l')
include h

theorem Precedes.append_left (front : List Char) :
    Precedes (front ++ l) (front ++ l') := by
  induction front with
  | nil => exact h
  | cons c front ih => exact ih.cons c

theorem Precedes.append (back back' : List Char) :
    Precedes (l ++ back) (l' ++ back') := by
  obtain ⟨common, c, c', rest, rest', rfl, rfl, hlt⟩ := h
  exact ⟨common, c, c', rest ++ back, rest' ++ back', by simp, by simp, hlt⟩

theorem Precedes.lt : String.ofList l < String.ofList l' := by
  obtain ⟨common, c, c', rest, rest', rfl, rfl, hlt⟩ := h
  rw [String.lt_iff_toList_lt, String.toList_ofList, String.toList_ofList]
  induction common with
  | nil => exact List.Lex.rel hlt
  | cons a common ih => exact List.Lex.cons ih

/-- A dash after the first `n` characters, and something done with the others. -/
theorem Precedes.group (n : ℕ) {f : List Char → List Char}
    (hf : ∀ {m m'}, Precedes m m' → Precedes (f m) (f m')) :
    Precedes (l.take n ++ '-' :: f (l.drop n)) (l'.take n ++ '-' :: f (l'.drop n)) := by
  obtain ⟨common, c, c', rest, rest', rfl, rfl, hlt⟩ := h
  by_cases hn : n ≤ common.length
  · -- the difference is behind the dash
    rw [List.take_append_of_le_length hn, List.take_append_of_le_length hn,
      List.drop_append_of_le_length hn, List.drop_append_of_le_length hn]
    apply Precedes.append_left
    apply Precedes.cons
    exact hf ⟨common.drop n, c, c', rest, rest', rfl, rfl, hlt⟩
  · obtain ⟨k, hk⟩ : ∃ k, n = common.length + (k + 1) := ⟨n - common.length - 1, by omega⟩
    rw [hk, List.take_length_add_append, List.take_length_add_append, List.take_succ_cons,
      List.take_succ_cons]
    apply Precedes.append
    exact ⟨common, c, c', rest.take k, rest'.take k, rfl, rfl, hlt⟩

end

theorem digitChar_lt {a b : ℕ} (hb : b < 16) (h : a < b) :
    Nat.digitChar a < Nat.digitChar b := by
  interval_cases b <;> interval_cases a <;> decide

theorem precedes_hexDigits {k n m : ℕ} (hm : m < 16 ^ k) (h : n < m) :
    Precedes (hexDigits k n) (hexDigits k m) := by
  induction k generalizing n m with
  | zero => omega
  | succ k ih =>
    rw [hexDigits, hexDigits]
    rw [pow_succ] at hm
    by_cases hhigh : n / 16 < m / 16
    · exact (ih (by omega) hhigh).append _ _
    · have heq : n / 16 = m / 16 := by omega
      rw [heq]
      apply Precedes.append_left
      exact ⟨[], _, _, [], [], rfl, rfl, digitChar_lt (Nat.mod_lt _ (by omega)) (by omega)⟩

/-- Identifiers are in the order of their texts. -/
theorem UUID.strictMono_str : StrictMono UUID.str := by
  intro a b h
  have hdigits : Precedes (hexDigits 32 a.int) (hexDigits 32 b.int) :=
    precedes_hexDigits b.int.isLt h
  have hgroups := hdigits.group 8 fun h => h.group 4 fun h => h.group 4 fun h => h.group 4 id
  simp only [List.drop_drop] at hgroups
  exact hgroups.lt

/-! ## The characters of an identifier -/

theorem not_isSpace_of_mem_hexDigits {k n : ℕ} : ∀ c ∈ hexDigits k n, isSpace c = false := by
  have hdigit : ∀ d, d < 16 → isSpace (Nat.digitChar d) = false := by decide
  induction k generalizing n with
  | zero => simp [hexDigits]
  | succ k ih =>
    intro c hc
    rw [hexDigits, List.mem_append, List.mem_singleton] at hc
    rcases hc with hc | rfl
    · exact ih c hc
    · exact hdigit _ (Nat.mod_lt _ (by omega))

theorem UUID.not_isSpace_of_mem_str (u : UUID) : ∀ c ∈ u.str.toList, isSpace c = false := by
  intro c hc
  have hchars : c ∈ hexDigits 32 u.int ∨ c = '-' := by
    unfold UUID.str at hc
    simp only [String.toList_ofList, List.mem_append, List.mem_cons] at hc
    rcases hc with hc | rfl | hc | rfl | hc | rfl | hc | rfl | hc
    · exact Or.inl (List.mem_of_mem_take hc)
    · exact Or.inr rfl
    · exact Or.inl (List.mem_of_mem_drop (List.mem_of_mem_take hc))
    · exact Or.inr rfl
    · exact Or.inl (List.mem_of_mem_drop (List.mem_of_mem_take hc))
    · exact Or.inr rfl
    · exact Or.inl (List.mem_of_mem_drop (List.mem_of_mem_take hc))
    · exact Or.inr rfl
    · exact Or.inl (List.mem_of_mem_drop hc)
  rcases hchars with hc | rfl
  · exact not_isSpace_of_mem_hexDigits c hc
  · decide

@[simp] theorem UUID.strip_str (u : UUID) : strip u.str = u.str :=
  strip_eq_self u.not_isSpace_of_mem_str

theorem UUID.str_ne_empty (u : UUID) : u.str ≠ "" := by
  intro h
  have hlist := congrArg String.toList h
  unfold UUID.str at hlist
  simp at hlist

end OmnibaseCore
