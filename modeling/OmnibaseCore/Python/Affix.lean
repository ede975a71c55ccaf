import Mathlib.Tactic

/-!
# Affixes of texts

`str.startswith`, `str.endswith`, `in`, `str.strip`, `str.split` and `str.replace` with a given
text.
-/

namespace OmnibaseCore

/-- `s.startswith(start)`. -/
def startsWith (start s : String) : Bool := start.toList.isPrefixOf s.toList

/-- `s.endswith(stop)`. -/
def endsWith (stop s : String) : Bool := stop.toList.isSuffixOf s.toList

/-- `needle in s`. -/
def occursIn (needle s : String) : Bool := s.toList.tails.any needle.toList.isPrefixOf

/-- `s.rstrip(c)`. -/
def rstripChar (c : Char) (s : String) : String :=
  String.ofList (s.toList.reverse.dropWhile (· = c)).reverse

/-- `s.strip(c)`. -/
def stripChar (c : Char) (s : String) : String :=
  String.ofList ((s.toList.dropWhile (· = c)).reverse.dropWhile (· = c)).reverse

/-- The pieces of a text of at most `n` characters between the `sep`s. The second argument is the
piece read so far. -/
def splitScan (sep : List Char) : ℕ → List Char → List Char → List (List Char)
  | 0, piece, _ => [piece]
  | _ + 1, piece, [] => [piece]
  | n + 1, piece, c :: rest =>
    if sep.isPrefixOf (c :: rest) then
      piece :: splitScan sep n [] ((c :: rest).drop sep.length)
    else splitScan sep n (piece ++ [c]) rest

/-- `s.split(sep)` for a `sep` that is not empty. -/
def splitText (sep s : String) : List String :=
  (splitScan sep.toList s.length [] s.toList).map String.ofList

/-- `s[n:]`. -/
def dropStart (n : ℕ) (s : String) : String := String.ofList (s.toList.drop n)

/-- `s[:-n]` for a positive `n`. -/
def dropEnd (n : ℕ) (s : String) : String := String.ofList (s.toList.take (s.toList.length - n))

/-- A text of at most `n` characters with `old` replaced, from left to right. -/
def replaceScan (old new : List Char) : ℕ → List Char → List Char
  | 0, s => s
  | _ + 1, [] => []
  | n + 1, c :: rest =>
    if old.isPrefixOf (c :: rest) then new ++ replaceScan old new n ((c :: rest).drop old.length)
    else c :: replaceScan old new n rest

/-- `s.replace(old, new)` for an `old` that is not empty. -/
def replaceText (old new s : String) : String :=
  String.ofList (replaceScan old.toList new.toList s.length s.toList)

/-! ## Replacement -/

section
variable {p new : List Char}

/-- No `p` begins in `u` when `v` comes behind it. -/
def Quiet (p : List Char) : List Char → List Char → Prop
  | [], _ => True
  | c :: u, v => ¬ p <+: c :: (u ++ v) ∧ Quiet p u v

theorem quiet_append {u u' v : List Char} :
    Quiet p (u ++ u') v ↔ Quiet p u (u' ++ v) ∧ Quiet p u' v := by
  induction u with
  | nil => simp [Quiet]
  | cons c u ih =>
    show (¬ p <+: c :: (u ++ u' ++ v)) ∧ Quiet p (u ++ u') v ↔
      ((¬ p <+: c :: (u ++ (u' ++ v))) ∧ Quiet p u (u' ++ v)) ∧ Quiet p u' v
    rw [ih, List.append_assoc, and_assoc]

theorem quiet_of_forall {u v : List Char} (h : ∀ t, t <:+ u → t ≠ [] → ¬ p <+: t ++ v) :
    Quiet p u v := by
  induction u with
  | nil => trivial
  | cons c u ih =>
    refine ⟨h (c :: u) (List.suffix_refl _) (List.cons_ne_nil c u), ih fun t ht => ?_⟩
    exact h t (ht.trans (List.suffix_cons c u))

theorem replaceScan_append {u v : List Char} (h : Quiet p u v) {n : ℕ}
    (hn : (u ++ v).length ≤ n) :
    replaceScan p new n (u ++ v) = u ++ replaceScan p new (n - u.length) v := by
  induction u generalizing n with
  | nil => rfl
  | cons c u ih =>
    cases n with
    | zero => exact absurd hn (by simp)
    | succ n =>
      rw [List.cons_append, replaceScan,
        if_neg (mt List.isPrefixOf_iff_prefix.mp h.1), ih h.2 (by simpa using hn), List.cons_append,
        List.length_cons, Nat.add_sub_add_right]

variable (new) in
theorem replaceScan_prefix (hp : p ≠ []) {v : List Char} {n : ℕ} (hn : (p ++ v).length ≤ n) :
    ∃ m, v.length ≤ m ∧ replaceScan p new n (p ++ v) = new ++ replaceScan p new m v := by
  cases p with
  | nil => exact absurd rfl hp
  | cons c p =>
    cases n with
    | zero => exact absurd hn (by simp)
    | succ n =>
      refine ⟨n, ?_, ?_⟩
      · rw [List.length_append, List.length_cons] at hn
        omega
      · have hstarts : (c :: p).isPrefixOf (c :: (p ++ v)) = true :=
          List.isPrefixOf_iff_prefix.mpr ⟨v, rfl⟩
        rw [List.cons_append, replaceScan, if_pos hstarts, ← List.cons_append, List.drop_left]

end

/-! ## Dotted names -/

/-- `a` is a package above `d`. -/
def Above (a d : String) : Prop := startsWith (a ++ ".") d = true

instance (a d : String) : Decidable (Above a d) := by
  unfold Above
  infer_instance

theorem above_iff {a d : String} : Above a d ↔ ∃ rest, d.toList = a.toList ++ '.' :: rest := by
  unfold Above startsWith
  rw [List.isPrefixOf_iff_prefix, String.toList_append]
  show (a.toList ++ ['.']) <+: d.toList ↔ _
  constructor
  · rintro ⟨rest, hrest⟩
    exact ⟨rest, by rw [← hrest, List.append_assoc]; rfl⟩
  · rintro ⟨rest, hrest⟩
    exact ⟨rest, by rw [hrest, List.append_assoc]; rfl⟩

theorem Above.trans {a b d : String} (hab : Above a b) (hbd : Above b d) : Above a d := by
  rw [above_iff] at *
  obtain ⟨front, hfront⟩ := hab
  obtain ⟨back, hback⟩ := hbd
  refine ⟨front ++ '.' :: back, ?_⟩
  rw [hback, hfront, List.append_assoc, List.cons_append]

end OmnibaseCore
