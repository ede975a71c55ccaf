import OmnibaseCore.Database.SqlUtils
import OmnibaseCore.Sql.Lexeme
import Std.Data.String.ToNat

/-!
# What `normalize_sql` makes of a statement

Every lexeme is numbered by the placeholder that stands for it, and each pass is a function of the
numbered lexemes.
-/

namespace OmnibaseCore.Database

open Regex Sql

/-! ## Plain statements -/

def endsInComment : Bool → List Char → Bool
  | b, [] => b
  | true, c :: rest => if c = '\n' then endsInComment false rest else endsInComment true rest
  | false, c :: rest =>
    if c = '-' ∧ rest.head? = some '-' then endsInComment true rest else endsInComment false rest

/-- What all placeholders have in common. -/
def marker : List Char := "SQL_STRING".toList

/-- The passes read the lexeme as SQL does. -/
def PlainLexeme : Lexeme → Prop
  | .char _ => True
  | .literal body => PlainBody '\'' body
  | .quoted body => PlainBody '"' body ∧ '\'' ∉ body
  | .lineComment body => '\'' ∉ body ∧ '"' ∉ body
  | .blockComment body => '\'' ∉ body ∧ '"' ∉ body ∧ endsInComment false body = false

instance PlainLexeme.decidable : ∀ l, Decidable (PlainLexeme l)
  | .char _ => inferInstanceAs (Decidable True)
  | .literal body => inferInstanceAs (Decidable (PlainBody '\'' body))
  | .quoted body => inferInstanceAs (Decidable (PlainBody '"' body ∧ '\'' ∉ body))
  | .lineComment body => inferInstanceAs (Decidable ('\'' ∉ body ∧ '"' ∉ body))
  | .blockComment body =>
    inferInstanceAs (Decidable ('\'' ∉ body ∧ '"' ∉ body ∧ endsInComment false body = false))

/-- The passes read the statement as SQL does. Whatever is cut out of it does not stand between two
quotes. -/
structure Plain (ls : List Lexeme) : Prop where
  lexemes : ∀ l ∈ ls, PlainLexeme l
  marker : ¬ marker <:+: text (cutComments ls)
  comments : Lexed (cutComments ls)
  literals : Lexed (cutLiterals (cutComments ls))

/-! ## Line comments -/

section
variable {b : Bool} {w rest : List Char}

theorem subLineComments_cons {c : Char} (h : ¬ (c = '-' ∧ rest.head? = some '-')) :
    subLineComments false (c :: rest) = c :: subLineComments false rest := by
  rw [subLineComments, if_neg h]

theorem subLineComments_append (hw : '-' ∉ w) :
    subLineComments false (w ++ rest) = w ++ subLineComments false rest := by
  induction w with
  | nil => rfl
  | cons c w ih =>
    rw [List.mem_cons, not_or] at hw
    rw [List.cons_append, subLineComments_cons fun h => hw.1 h.1.symm, ih hw.2, List.cons_append]

theorem subLineComments_comment (hw : '\n' ∉ w) (hrest : ∀ c ∈ rest.head?, c = '\n') :
    subLineComments true (w ++ rest) = subLineComments false rest := by
  induction w with
  | nil =>
    cases rest with
    | nil => rfl
    | cons c rest =>
      rw [List.nil_append, subLineComments, if_pos (hrest c rfl), hrest c rfl,
        subLineComments_cons fun h => absurd h.1 (by decide)]
  | cons c w ih =>
    rw [List.mem_cons, not_or] at hw
    rw [List.cons_append, subLineComments, if_neg fun h => hw.1 h.symm, ih hw.2]

theorem subLineComments_star (h : endsInComment b w = false) :
    subLineComments b (w ++ '*' :: rest) = subLineComments b w ++ '*' :: subLineComments false rest := by
  induction w generalizing b with
  | nil =>
    rw [show b = false from h, List.nil_append,
      subLineComments_cons fun hstar => absurd hstar.1 (by decide)]
    rfl
  | cons c w ih =>
    cases b with
    | true =>
      rw [endsInComment] at h
      rw [List.cons_append, subLineComments, subLineComments]
      by_cases hc : c = '\n'
      · rw [if_pos hc] at h ⊢
        rw [if_pos hc, ih h, List.cons_append]
      · rw [if_neg hc] at h ⊢
        rw [if_neg hc, ih h]
    | false =>
      rw [endsInComment] at h
      have hhead : (w ++ '*' :: rest).head? = some '-' ↔ w.head? = some '-' := by
        cases w with
        | nil => simp
        | cons d w => exact Iff.rfl
      rw [List.cons_append, subLineComments, subLineComments]
      by_cases hc : c = '-' ∧ w.head? = some '-'
      · rw [if_pos hc] at h
        rw [if_pos ⟨hc.1, hhead.mpr hc.2⟩, if_pos hc, ih h]
      · rw [if_neg hc] at h
        rw [if_neg fun h => hc ⟨h.1, hhead.mp h.2⟩, if_neg hc, ih h, List.cons_append]

theorem head?_subLineComments (h : (subLineComments b w ++ ['*']).head? = some '/') :
    b = false ∧ w.head? = some '/' := by
  induction w generalizing b with
  | nil => exact absurd h (by cases b <;> decide)
  | cons c w ih =>
    cases b with
    | true =>
      rw [subLineComments] at h
      split_ifs at h with hc
      · rw [hc] at h
        exact absurd h (by simp)
      · exact absurd (ih h).1 (by decide)
    | false =>
      rw [subLineComments] at h
      split_ifs at h with hc
      · exact absurd (ih h).1 (by decide)
      · exact ⟨rfl, h⟩

theorem unclosed_cons {c : Char} :
    Unclosed (c :: w) ↔ ¬ (c = '*' ∧ w.head? = some '/') ∧ Unclosed w := by
  cases w with
  | nil => simp [Unclosed]
  | cons d w => simp [Unclosed]

theorem unclosed_subLineComments (h : Unclosed (w ++ ['*'])) :
    Unclosed (subLineComments b w ++ ['*']) := by
  induction w generalizing b with
  | nil => cases b <;> exact h
  | cons c w ih =>
    rw [List.cons_append, unclosed_cons] at h
    cases b with
    | true =>
      rw [subLineComments]
      split_ifs with hc
      · rw [List.cons_append, unclosed_cons, hc]
        exact ⟨fun hstar => absurd hstar.1 (by decide), ih h.2⟩
      · exact ih h.2
    | false =>
      rw [subLineComments]
      split_ifs with hc
      · exact ih h.2
      · rw [List.cons_append, unclosed_cons]
        refine ⟨fun hstar => h.1 ⟨hstar.1, ?_⟩, ih h.2⟩
        have hhead := (head?_subLineComments hstar.2).2
        cases w with
        | nil => exact nomatch hhead
        | cons d w => exact hhead

end

/-! ## Block comments -/

section
variable {w rest : List Char} {n : ℕ}

theorem behindClose_append (h : Unclosed (w ++ ['*'])) :
    behindClose (w ++ '*' :: '/' :: rest) = some rest := by
  induction w with
  | nil => rfl
  | cons c w ih =>
    rw [List.cons_append, unclosed_cons] at h
    cases w with
    | nil =>
      rw [List.cons_append, List.nil_append, behindClose, if_neg fun hc => absurd hc.2 (by decide)]
      rfl
    | cons d w =>
      rw [List.cons_append, List.cons_append, behindClose,
        if_neg fun hc => h.1 ⟨hc.1, congrArg some hc.2⟩]
      exact ih h.2

theorem subBlockComments_cons {c : Char} (h : ¬ (c = '/' ∧ rest.head? = some '*')) :
    subBlockComments (n + 1) (c :: rest) = c :: subBlockComments n rest := by
  rw [subBlockComments, if_neg h]

theorem subBlockComments_append (hw : '/' ∉ w) (hn : (w ++ rest).length ≤ n) :
    subBlockComments n (w ++ rest) = w ++ subBlockComments (n - w.length) rest := by
  induction w generalizing n with
  | nil => rfl
  | cons c w ih =>
    rw [List.mem_cons, not_or] at hw
    cases n with
    | zero => exact absurd hn (by simp)
    | succ n =>
      rw [List.cons_append, subBlockComments_cons fun h => hw.1 h.1.symm,
        ih hw.2 (by simpa using hn), List.cons_append, List.length_cons, Nat.add_sub_add_right]

theorem subBlockComments_comment (h : Unclosed (w ++ ['*'])) :
    subBlockComments (n + 1) ('/' :: '*' :: (w ++ '*' :: '/' :: rest)) = subBlockComments n rest := by
  rw [subBlockComments, if_pos ⟨rfl, rfl⟩, List.tail_cons, behindClose_append h]

end

/-! ## Numbered lexemes -/

def Masked (l : Lexeme) : Prop := ∃ body, l = .literal body ∨ l = .quoted body

/-- The lexemes with the numbers of their placeholders: the literals from `i`, the quoted
identifiers from `j`. -/
def numbered : ℕ → ℕ → List Lexeme → List (Lexeme × ℕ)
  | _, _, [] => []
  | i, j, .literal body :: ls => (.literal body, i) :: numbered (i + 1) j ls
  | i, j, .quoted body :: ls => (.quoted body, j) :: numbered i (j + 1) ls
  | i, j, l :: ls => (l, 0) :: numbered i j ls

def placeholder (n : ℕ) : List Char := (placeholderText n).toList

def withoutSingle : Lexeme × ℕ → List Char
  | (.literal _, n) => placeholder n
  | (l, _) => l.text

def withoutQuotes : Lexeme × ℕ → List Char
  | (.quoted _, n) => placeholder n
  | x => withoutSingle x

def withoutLines : Lexeme × ℕ → List Char
  | (.lineComment _, _) => []
  | (.blockComment body, _) =>
    '/' :: '*' :: (subLineComments false body ++ ['*', '/'])
  | x => withoutQuotes x

/-- Without all comments, and with the first `m` strings back in their places. -/
def restored (m : ℕ) : Lexeme × ℕ → List Char
  | (.literal body, n) => if n < m then (Lexeme.literal body).text else placeholder n
  | (.quoted body, n) => if n < m then (Lexeme.quoted body).text else placeholder n
  | (.char c, _) => [c]
  | (.lineComment _, _) => []
  | (.blockComment _, _) => []

theorem toList_placeholder (n : ℕ) :
    placeholder n = '_' :: '_' :: (marker ++ '_' :: (Nat.toDigits 10 n ++ ['_', '_'])) := by
  unfold placeholder placeholderText
  rw [String.toList_append, String.toList_append]
  show "__SQL_STRING_".toList ++ (Nat.repr n).toList ++ "__".toList = _
  rw [Nat.toList_repr]
  rfl

variable {c : Char}

theorem isDigit_of_mem_toDigits {n : ℕ} (hc : c ∈ Nat.toDigits 10 n) :
    c.isDigit = true := Nat.isDigit_of_mem_toDigits (by decide) le_rfl hc

theorem of_mem_placeholder {n : ℕ} (hc : c ∈ placeholder n) :
    c = '_' ∨ c ∈ marker ∨ c.isDigit = true := by
  rw [toList_placeholder] at hc
  simp only [List.mem_cons, List.mem_append, List.not_mem_nil, or_false] at hc
  rcases hc with rfl | rfl | hc | rfl | hc | rfl | rfl
  · exact Or.inl rfl
  · exact Or.inl rfl
  · exact Or.inr (Or.inl hc)
  · exact Or.inl rfl
  · exact Or.inr (Or.inr (isDigit_of_mem_toDigits hc))
  · exact Or.inl rfl
  · exact Or.inl rfl

theorem not_mem_placeholder (n : ℕ) (h : c ≠ '_' ∧ c ∉ marker ∧ c.isDigit = false) :
    c ∉ placeholder n := by
  intro hc
  rcases of_mem_placeholder hc with hc | hc | hc
  · exact h.1 hc
  · exact h.2.1 hc
  · rw [h.2.2] at hc
    exact nomatch hc

theorem eq_of_prefix_placeholder {m n : ℕ} {rest : List Char}
    (h : placeholder m <+: placeholder n ++ rest) : m = n := by
  obtain ⟨rest', h⟩ := h
  rw [toList_placeholder, toList_placeholder] at h
  simp only [List.cons_append, List.append_assoc, List.nil_append, List.cons.injEq, true_and,
    List.append_cancel_left_eq] at h
  have hunderscore : ∀ rest : List Char, ∀ c ∈ ('_' :: '_' :: rest).head?, c.isDigit = false := by
    intro rest c hc
    rw [← Option.some.inj hc]
    decide
  have hdigits := append_inj_of_class (fun c hc => isDigit_of_mem_toDigits hc)
    (fun c hc => isDigit_of_mem_toDigits hc) (hunderscore rest') (hunderscore rest) h
  apply Nat.repr_injective
  rw [← String.toList_inj, Nat.toList_repr, Nat.toList_repr, hdigits.1]

/-! ## The strings are taken out -/

def singleBody : Lexeme × ℕ → Option (List Char)
  | (.literal body, _) => some body
  | _ => none

/-- What the second pass takes of a lexeme. -/
def doubleBody : Lexeme × ℕ → Option (List Char)
  | (.quoted body, _) => some body
  | _ => none

/-- The pieces of a numbered lexeme, for a pass that takes `body` of it. -/
def passPieces (q : Char) (body : Lexeme × ℕ → Option (List Char))
    (before : Lexeme × ℕ → List Char) (x : Lexeme × ℕ) : List Piece :=
  match body x with
  | some b => [.found (delimitedMatch q b)]
  | none => (before x).map Piece.char

def takenBy (body : Lexeme × ℕ → Option (List Char)) (xs : List (Lexeme × ℕ)) :
    List (Lexeme × ℕ) :=
  xs.filter fun x => (body x).isSome

theorem subPlaceholders_chars (w : List Char) (ps : List Piece) (st : Extraction) :
    subPlaceholders (w.map Piece.char ++ ps) st
      = (w ++ (subPlaceholders ps st).1, (subPlaceholders ps st).2) := by
  induction w with
  | nil => rfl
  | cons c w ih =>
    rw [List.map_cons, List.cons_append, subPlaceholders, ih]
    rfl

section
variable {q : Char} {body : Lexeme × ℕ → Option (List Char)} {before : Lexeme × ℕ → List Char}
  (hbefore : ∀ x b, body x = some b → before x = q :: (b ++ [q]))
include hbefore

theorem piecesText_pass (xs : List (Lexeme × ℕ)) :
    piecesText (xs.flatMap (passPieces q body before)) = xs.flatMap before := by
  induction xs with
  | nil => rfl
  | cons x xs ih =>
    rw [List.flatMap_cons, List.flatMap_cons, piecesText_append, ih]
    congr 1
    unfold passPieces
    cases hb : body x with
    | none => exact piecesText_chars (before x)
    | some b =>
      rw [hbefore x b hb]
      simp [Piece.text, delimitedMatch]

theorem subPlaceholders_pass (xs : List (Lexeme × ℕ)) (st : Extraction)
    (hnumbers : (takenBy body xs).map Prod.snd
      = List.range' st.counter (takenBy body xs).length) :
    subPlaceholders (xs.flatMap (passPieces q body before)) st =
      (xs.flatMap fun x => if (body x).isSome then placeholder x.2 else before x,
        { counter := st.counter + (takenBy body xs).length
          replacements := st.replacements ++ (takenBy body xs).map fun x =>
            (placeholderText x.2, String.ofList (before x)) }) := by
  induction xs generalizing st with
  | nil => simp [subPlaceholders, takenBy]
  | cons x xs ih =>
    rw [List.flatMap_cons, List.flatMap_cons]
    cases hb : body x with
    | none =>
      have htaken : takenBy body (x :: xs) = takenBy body xs :=
        List.filter_cons_of_neg (by simp [hb])
      have hpieces : passPieces q body before x = (before x).map Piece.char := by
        unfold passPieces
        rw [hb]
      rw [htaken] at hnumbers ⊢
      rw [hpieces, subPlaceholders_chars, ih st hnumbers]
      rfl
    | some b =>
      have htaken : takenBy body (x :: xs) = x :: takenBy body xs :=
        List.filter_cons_of_pos (by simp [hb])
      have hpieces : passPieces q body before x = [.found (delimitedMatch q b)] := by
        unfold passPieces
        rw [hb]
      rw [htaken] at hnumbers ⊢
      rw [List.map_cons, List.length_cons, List.range'_succ, List.cons.injEq] at hnumbers
      have htext : (delimitedMatch q b).taken = before x := (hbefore x b hb).symm
      rw [hpieces, List.singleton_append, subPlaceholders]
      dsimp only [makePlaceholder]
      rw [ih _ hnumbers.2, htext, ← hnumbers.1]
      simp only [Option.isSome_some, if_true, List.length_cons, List.map_cons, List.append_assoc,
        List.singleton_append, Prod.mk.injEq, Extraction.mk.injEq, and_true]
      exact ⟨rfl, by omega⟩

end

theorem takenBy_numbered (i j : ℕ) (ls : List Lexeme) :
    (takenBy singleBody (numbered i j ls)).map Prod.snd
        = List.range' i (takenBy singleBody (numbered i j ls)).length ∧
      (takenBy doubleBody (numbered i j ls)).map Prod.snd
        = List.range' j (takenBy doubleBody (numbered i j ls)).length := by
  induction ls generalizing i j with
  | nil => exact ⟨rfl, rfl⟩
  | cons l ls ih =>
    cases l with
    | literal body =>
      refine ⟨?_, (ih (i + 1) j).2⟩
      show i :: (takenBy singleBody (numbered (i + 1) j ls)).map Prod.snd
        = List.range' i ((takenBy singleBody (numbered (i + 1) j ls)).length + 1)
      rw [(ih (i + 1) j).1, List.range'_succ]
    | quoted body =>
      refine ⟨(ih i (j + 1)).1, ?_⟩
      show j :: (takenBy doubleBody (numbered i (j + 1) ls)).map Prod.snd
        = List.range' j ((takenBy doubleBody (numbered i (j + 1) ls)).length + 1)
      rw [(ih i (j + 1)).2, List.range'_succ]
    | _ => exact ih i j

theorem map_fst_numbered (i j : ℕ) (ls : List Lexeme) :
    (numbered i j ls).map Prod.fst = ls := by
  induction ls generalizing i j with
  | nil => rfl
  | cons l ls ih =>
    cases l with
    | literal body => exact congrArg (_ :: ·) (ih (i + 1) j)
    | quoted body => exact congrArg (_ :: ·) (ih i (j + 1))
    | char c => exact congrArg (_ :: ·) (ih i j)
    | lineComment body => exact congrArg (_ :: ·) (ih i j)
    | blockComment body => exact congrArg (_ :: ·) (ih i j)

theorem flatMap_text_numbered (i j : ℕ) (ls : List Lexeme) :
    ((numbered i j ls).flatMap fun x => x.1.text) = text ls := by
  unfold Sql.text
  rw [← List.flatMap_map, map_fst_numbered]

/-! ## Each pass reads the lexemes as they are -/

theorem head?_placeholder (n : ℕ) (rest : List Char) :
    (placeholder n ++ rest).head? = some '_' := by
  rw [toList_placeholder]
  rfl

variable {i j : ℕ}

variable {ls : List Lexeme}

theorem head?_withoutSingle (hc : c ≠ '_')
    (h : ((numbered i j ls).flatMap withoutSingle).head? = some c) : (text ls).head? = some c := by
  cases ls with
  | nil => exact nomatch h
  | cons l ls =>
    cases l with
    | literal body =>
      have hfirst : (placeholder i ++ _).head? = some c := h
      rw [head?_placeholder] at hfirst
      exact absurd (Option.some.inj hfirst).symm hc
    | char d => exact h
    | quoted body => exact h
    | lineComment body => exact h
    | blockComment body => exact h

theorem head?_withoutQuotes (hc : c ≠ '_')
    (h : ((numbered i j ls).flatMap withoutQuotes).head? = some c) : (text ls).head? = some c := by
  cases ls with
  | nil => exact nomatch h
  | cons l ls =>
    cases l with
    | literal body =>
      have hfirst : (placeholder i ++ _).head? = some c := h
      rw [head?_placeholder] at hfirst
      exact absurd (Option.some.inj hfirst).symm hc
    | quoted body =>
      have hfirst : (placeholder j ++ _).head? = some c := h
      rw [head?_placeholder] at hfirst
      exact absurd (Option.some.inj hfirst).symm hc
    | char d => exact h
    | lineComment body => exact h
    | blockComment body => exact h

variable (x : Lexeme × ℕ)

theorem singleBody_before (b : List Char) (h : singleBody x = some b) :
    x.1.text = '\'' :: (b ++ ['\'']) := by
  obtain ⟨l, n⟩ := x
  cases l with
  | literal body =>
    cases h
    rfl
  | char c => exact nomatch h
  | quoted body => exact nomatch h
  | lineComment body => exact nomatch h
  | blockComment body => exact nomatch h

theorem doubleBody_before (b : List Char) (h : doubleBody x = some b) :
    withoutSingle x = '"' :: (b ++ ['"']) := by
  obtain ⟨l, n⟩ := x
  cases l with
  | quoted body =>
    cases h
    rfl
  | char c => exact nomatch h
  | literal body => exact nomatch h
  | lineComment body => exact nomatch h
  | blockComment body => exact nomatch h

theorem fits_single (i j : ℕ) (hlexed : Lexed ls) (hplain : ∀ l ∈ ls, PlainLexeme l) :
    Fits '\'' ((numbered i j ls).flatMap (passPieces '\'' singleBody fun x => x.1.text)) := by
  induction ls generalizing i j with
  | nil => trivial
  | cons l ls ih =>
    obtain ⟨hreads, hlexed⟩ := hlexed
    rw [List.forall_mem_cons] at hplain
    cases l with
    | char c =>
      refine fits_append_chars ?_ (ih i j hlexed hplain.2)
      exact fun h => hreads.1 (List.mem_singleton.mp h).symm
    | literal body =>
      refine ⟨⟨body, hplain.1, rfl⟩, ?_, ih (i + 1) j hlexed hplain.2⟩
      show (piecesText ((numbered (i + 1) j ls).flatMap _)).head? ≠ some '\''
      rw [piecesText_pass singleBody_before, flatMap_text_numbered]
      exact hreads.2
    | quoted body =>
      refine fits_append_chars ?_ (ih i (j + 1) hlexed hplain.2)
      show '\'' ∉ '"' :: (body ++ ['"'])
      simp [hplain.1.2]
    | lineComment body =>
      refine fits_append_chars ?_ (ih i j hlexed hplain.2)
      show '\'' ∉ '-' :: '-' :: body
      simp [hplain.1.1]
    | blockComment body =>
      refine fits_append_chars ?_ (ih i j hlexed hplain.2)
      show '\'' ∉ '/' :: '*' :: (body ++ ['*', '/'])
      simp [hplain.1.1]

theorem fits_double (i j : ℕ) (hlexed : Lexed ls) (hplain : ∀ l ∈ ls, PlainLexeme l) :
    Fits '"' ((numbered i j ls).flatMap (passPieces '"' doubleBody withoutSingle)) := by
  induction ls generalizing i j with
  | nil => trivial
  | cons l ls ih =>
    obtain ⟨hreads, hlexed⟩ := hlexed
    rw [List.forall_mem_cons] at hplain
    cases l with
    | char c =>
      refine fits_append_chars ?_ (ih i j hlexed hplain.2)
      exact fun h => hreads.2.1 (List.mem_singleton.mp h).symm
    | literal body =>
      exact fits_append_chars (not_mem_placeholder i (by decide)) (ih (i + 1) j hlexed hplain.2)
    | quoted body =>
      refine ⟨⟨body, hplain.1.1, rfl⟩, fun hhead => ?_, ih i (j + 1) hlexed hplain.2⟩
      have hfirst : (piecesText ((numbered i (j + 1) ls).flatMap
        (passPieces '"' doubleBody withoutSingle))).head? = some '"' := hhead
      rw [piecesText_pass doubleBody_before] at hfirst
      exact hreads.2 (head?_withoutSingle (by decide) hfirst)
    | lineComment body =>
      refine fits_append_chars ?_ (ih i j hlexed hplain.2)
      show '"' ∉ '-' :: '-' :: body
      simp [hplain.1.2]
    | blockComment body =>
      refine fits_append_chars ?_ (ih i j hlexed hplain.2)
      show '"' ∉ '/' :: '*' :: (body ++ ['*', '/'])
      simp [hplain.1.2.1]

theorem eq_of_lineComment (h : ∀ c ∈ (text ls).head?, c = '\n') :
    ls = [] ∨ ∃ ls', ls = .char '\n' :: ls' := by
  cases ls with
  | nil => exact Or.inl rfl
  | cons l ls =>
    cases l with
    | char c => exact Or.inr ⟨ls, by rw [h c rfl]⟩
    | literal body => exact absurd (h '\'' rfl) (by decide)
    | quoted body => exact absurd (h '"' rfl) (by decide)
    | lineComment body => exact absurd (h '-' rfl) (by decide)
    | blockComment body => exact absurd (h '/' rfl) (by decide)

/-- The pass for line comments takes the comments, and nothing of a placeholder. -/
theorem subLineComments_numbered (i j : ℕ) (hlexed : Lexed ls) (hplain : ∀ l ∈ ls, PlainLexeme l) :
    subLineComments false ((numbered i j ls).flatMap withoutQuotes)
      = (numbered i j ls).flatMap withoutLines := by
  induction ls generalizing i j with
  | nil => rfl
  | cons l ls ih =>
    obtain ⟨hreads, hlexed⟩ := hlexed
    rw [List.forall_mem_cons] at hplain
    cases l with
    | char c =>
      show subLineComments false (c :: (numbered i j ls).flatMap withoutQuotes) = _
      rw [subLineComments_cons, ih i j hlexed hplain.2]
      · rfl
      · exact fun h => hreads.2.2.1 ⟨h.1, head?_withoutQuotes (by decide) h.2⟩
    | literal body =>
      show subLineComments false (placeholder i ++ (numbered (i + 1) j ls).flatMap withoutQuotes) = _
      rw [subLineComments_append (not_mem_placeholder i (by decide)), ih (i + 1) j hlexed hplain.2]
      rfl
    | quoted body =>
      show subLineComments false (placeholder j ++ (numbered i (j + 1) ls).flatMap withoutQuotes) = _
      rw [subLineComments_append (not_mem_placeholder j (by decide)), ih i (j + 1) hlexed hplain.2]
      rfl
    | lineComment body =>
      show subLineComments false
        ('-' :: '-' :: (body ++ (numbered i j ls).flatMap withoutQuotes)) = _
      have hline : ∀ c ∈ ((numbered i j ls).flatMap withoutQuotes).head?, c = '\n' := by
        intro c hc
        rcases eq_of_lineComment hreads.2 with rfl | ⟨ls', rfl⟩
        · exact nomatch hc
        · exact (Option.some.inj hc).symm
      have hbody : '\n' ∉ '-' :: body := by simp [hreads.1]
      rw [subLineComments, if_pos ⟨rfl, rfl⟩, ← List.cons_append,
        subLineComments_comment hbody hline, ih i j hlexed hplain.2]
      rfl
    | blockComment body =>
      show subLineComments false ('/' :: '*' ::
        (body ++ ['*', '/'] ++ (numbered i j ls).flatMap withoutQuotes)) = _
      rw [subLineComments_cons fun h => absurd h.1 (by decide),
        subLineComments_cons fun h => absurd h.1 (by decide), List.append_assoc, List.cons_append,
        subLineComments_star hplain.1.2.2, List.cons_append,
        subLineComments_cons fun h => absurd h.1 (by decide), List.nil_append,
        ih i j hlexed hplain.2]
      show _ = '/' :: '*' :: (subLineComments false body ++ ['*', '/']) ++
        (numbered i j ls).flatMap withoutLines
      simp

theorem head?_withoutLines (hlexed : Lexed ls)
    (h : ((numbered i j ls).flatMap withoutLines).head? = some '*') :
    (text ls).head? = some '*' := by
  cases ls with
  | nil => exact nomatch h
  | cons l ls =>
    cases l with
    | char d => exact h
    | literal body =>
      have hfirst : (placeholder i ++ _).head? = some '*' := h
      rw [head?_placeholder] at hfirst
      exact absurd (Option.some.inj hfirst) (by decide)
    | quoted body =>
      have hfirst : (placeholder j ++ _).head? = some '*' := h
      rw [head?_placeholder] at hfirst
      exact absurd (Option.some.inj hfirst) (by decide)
    | lineComment body =>
      rcases eq_of_lineComment hlexed.1.2 with rfl | ⟨ls', rfl⟩
      · exact nomatch h
      · exact absurd (Option.some.inj h) (by decide)
    | blockComment body => exact absurd (Option.some.inj h) (by decide)

/-- The pass for block comments takes the block comments only. -/
theorem subBlockComments_numbered (i j : ℕ) (hlexed : Lexed ls) (n : ℕ)
    (hn : ((numbered i j ls).flatMap withoutLines).length ≤ n) :
    subBlockComments n ((numbered i j ls).flatMap withoutLines)
      = (numbered i j ls).flatMap (restored 0) := by
  induction ls generalizing i j n with
  | nil => cases n <;> rfl
  | cons l ls ih =>
    obtain ⟨hreads, hlexed⟩ := hlexed
    cases l with
    | char c =>
      have htext : (numbered i j (.char c :: ls)).flatMap withoutLines
        = c :: (numbered i j ls).flatMap withoutLines := rfl
      rw [htext] at hn ⊢
      cases n with
      | zero => exact absurd hn (by simp)
      | succ n =>
        rw [subBlockComments_cons, ih i j hlexed n (by simpa using hn)]
        · rfl
        · exact fun h => hreads.2.2.2 ⟨h.1, head?_withoutLines hlexed h.2⟩
    | literal body =>
      have htext : (numbered i j (.literal body :: ls)).flatMap withoutLines
        = placeholder i ++ (numbered (i + 1) j ls).flatMap withoutLines := rfl
      rw [htext] at hn ⊢
      rw [subBlockComments_append (not_mem_placeholder i (by decide)) hn,
        ih (i + 1) j hlexed _ (by rw [List.length_append] at hn; omega)]
      rfl
    | quoted body =>
      have htext : (numbered i j (.quoted body :: ls)).flatMap withoutLines
        = placeholder j ++ (numbered i (j + 1) ls).flatMap withoutLines := rfl
      rw [htext] at hn ⊢
      rw [subBlockComments_append (not_mem_placeholder j (by decide)) hn,
        ih i (j + 1) hlexed _ (by rw [List.length_append] at hn; omega)]
      rfl
    | lineComment body => exact ih i j hlexed n hn
    | blockComment body =>
      have htext : (numbered i j (.blockComment body :: ls)).flatMap withoutLines
        = '/' :: '*' :: (subLineComments false body ++ '*' :: '/' ::
          (numbered i j ls).flatMap withoutLines) := by
        show '/' :: '*' :: (subLineComments false body ++ ['*', '/']) ++
          (numbered i j ls).flatMap withoutLines = _
        simp only [List.cons_append, List.append_assoc, List.nil_append]
      rw [htext] at hn ⊢
      cases n with
      | zero => exact absurd hn (by simp)
      | succ n =>
        rw [subBlockComments_comment (unclosed_subLineComments hreads), ih i j hlexed n]
        · rfl
        · simp only [List.length_cons, List.length_append] at hn
          omega

/-! ## The strings come back

Where a placeholder begins, its two underscores and the marker stand, and the marker stands nowhere
else in a plain statement. -/

theorem masked_restored {l : Lexeme} (hl : Masked l) (m n : ℕ) :
    restored m (l, n) = if n < m then l.text else placeholder n := by
  obtain ⟨body, rfl | rfl⟩ := hl <;> rfl

theorem marker_of_prefix_placeholder {m : ℕ} {rest : List Char} (h : placeholder m <+: c :: rest) :
    c = '_' ∧ ('_' :: marker) <+: rest := by
  rw [toList_placeholder, List.cons_prefix_cons] at h
  obtain ⟨rfl, tail, htail⟩ := h
  refine ⟨rfl, ⟨'_' :: (Nat.toDigits 10 m ++ ['_', '_']) ++ tail, ?_⟩⟩
  rw [← htail]
  simp only [List.cons_append, List.append_assoc]

theorem quiet_of_not_mem {p u v : List Char} (hp : p.head? = some '_') (hu : '_' ∉ u) :
    Quiet p u v := by
  induction u with
  | nil => trivial
  | cons c u ih =>
    rw [List.mem_cons, not_or] at hu
    refine ⟨fun h => hu.1 ?_, ih hu.2⟩
    cases p with
    | nil => exact nomatch hp
    | cons d p =>
      rw [← Option.some.inj hp]
      exact (List.cons_prefix_cons.mp h).1

theorem quiet_marker (m : ℕ) (v : List Char) : Quiet (placeholder m) marker v := by
  apply quiet_of_forall
  intro t ht hne h
  have htails : ∀ t ∈ marker.tails, t.head? = some '_' → t.tail.head? = some 'S' := by decide
  cases t with
  | nil => exact hne rfl
  | cons c t =>
    obtain ⟨rfl, htail⟩ := marker_of_prefix_placeholder h
    have hsecond := htails _ ((List.mem_tails _ _).mpr ht) rfl
    cases t with
    | nil => exact nomatch hsecond
    | cons d t =>
      obtain rfl : d = 'S' := Option.some.inj hsecond
      exact absurd (List.cons_prefix_cons.mp htail).1 (by decide)

section
variable {m n : ℕ} {rest : List Char} (hmarker : ¬ marker <+: rest)
  (hunderscore : ¬ ('_' :: marker) <+: rest)
include hmarker hunderscore

theorem quiet_placeholder (hne : m ≠ n) : Quiet (placeholder m) (placeholder n) rest := by
  have hhead : (placeholder m).head? = some '_' := by
    rw [toList_placeholder]
    rfl
  have hwhole : ¬ placeholder m <+: placeholder n ++ rest := fun h => hne (eq_of_prefix_placeholder h)
  rw [toList_placeholder n] at hwhole ⊢
  refine ⟨hwhole, fun h => ?_, ?_⟩
  · have htail := (marker_of_prefix_placeholder h).2
    exact absurd (List.cons_prefix_cons.mp htail).1 (by decide)
  · rw [quiet_append]
    refine ⟨quiet_marker m _, fun h => ?_, ?_⟩
    · -- behind the last underscore of the marker there is a digit
      have htail := (marker_of_prefix_placeholder h).2
      cases hdigits : Nat.toDigits 10 n with
      | nil => exact absurd hdigits Nat.toDigits_ne_nil
      | cons d ds =>
        rw [hdigits] at htail
        have hdigit : d.isDigit = true := isDigit_of_mem_toDigits (hdigits ▸ List.mem_cons_self)
        rw [← (List.cons_prefix_cons.mp htail).1] at hdigit
        exact absurd hdigit (by decide)
    · rw [quiet_append]
      refine ⟨quiet_of_not_mem hhead fun h => absurd (isDigit_of_mem_toDigits h) (by decide), ?_⟩
      refine ⟨fun h => hmarker ?_, fun h => hunderscore (marker_of_prefix_placeholder h).2, trivial⟩
      exact (List.cons_prefix_cons.mp (marker_of_prefix_placeholder h).2).2

omit hmarker in
theorem quiet_char (c : Char) : Quiet (placeholder m) [c] rest :=
  ⟨fun h => hunderscore (marker_of_prefix_placeholder h).2, trivial⟩

omit hmarker hunderscore in
theorem quiet_string {q : Char} {body : List Char} (hq : q ∉ placeholder m)
    (hstring : ¬ marker <:+: q :: (body ++ [q])) : Quiet (placeholder m) (q :: (body ++ [q])) rest := by
  apply quiet_of_forall
  intro t ht hne h
  rcases List.prefix_or_prefix_of_prefix h (List.prefix_append t rest) with hp | hp
  · apply hstring
    have hmark : marker <:+: placeholder m := by
      rw [toList_placeholder]
      exact ⟨['_', '_'], _, by rw [List.append_assoc]; rfl⟩
    exact hmark.trans (hp.isInfix.trans ht.isInfix)
  · -- the last character is a quote
    have hlast : t.getLast hne = q := by
      have := ht.getLast hne
      rw [this]
      simp
    exact hq (hlast ▸ hp.subset (List.getLast_mem hne))

end

def commentless (xs : List (Lexeme × ℕ)) : List Char := text (cutComments (xs.map Prod.fst))

theorem commentless_cons (xs : List (Lexeme × ℕ)) :
    commentless (x :: xs) = (if x.1.isComment then [] else x.1.text) ++ commentless xs := by
  unfold commentless cutComments
  rw [List.map_cons, List.filter_cons]
  cases hcomment : x.1.isComment <;> simp

/-- What begins like the marker of a placeholder begins so without the comments. -/
theorem prefix_commentless {m : ℕ} {w : List Char} (hw : w ∈ marker.tails) (hne : w ≠ [])
    {xs : List (Lexeme × ℕ)} (h : w <+: xs.flatMap (restored m)) : w <+: commentless xs := by
  have hquote : ∀ w ∈ marker.tails, w.head? ≠ some '\'' ∧ w.head? ≠ some '"' := by decide
  have hunderscore : ∀ w ∈ marker.tails, w.head? = some '_' → w.tail.head? = some 'S' := by decide
  -- neither a string nor a placeholder begins with an end of the marker
  have hstring : ∀ (l : Lexeme) (n : ℕ) (w rest : List Char), Masked l → w ∈ marker.tails → w ≠ [] →
      ¬ w <+: restored m (l, n) ++ rest := by
    intro l n w rest hl hw hne h
    rw [masked_restored hl] at h
    cases w with
    | nil => exact hne rfl
    | cons c w =>
      split_ifs at h with hn
      · obtain ⟨body, rfl | rfl⟩ := hl
        · exact (hquote _ hw).1 (congrArg some (List.cons_prefix_cons.mp h).1)
        · exact (hquote _ hw).2 (congrArg some (List.cons_prefix_cons.mp h).1)
      · rw [toList_placeholder] at h
        obtain ⟨rfl, htail⟩ := List.cons_prefix_cons.mp h
        have hsecond := hunderscore _ hw rfl
        cases w with
        | nil => exact nomatch hsecond
        | cons d w =>
          obtain rfl : d = 'S' := Option.some.inj hsecond
          exact absurd (List.cons_prefix_cons.mp htail).1 (by decide)
  induction xs generalizing w with
  | nil => exact absurd (List.prefix_nil.mp h) hne
  | cons x xs ih =>
    obtain ⟨l, n⟩ := x
    rw [commentless_cons]
    cases l with
    | literal body => exact absurd h (hstring _ n w _ ⟨body, Or.inl rfl⟩ hw hne)
    | quoted body => exact absurd h (hstring _ n w _ ⟨body, Or.inr rfl⟩ hw hne)
    | lineComment body => exact ih hw hne h
    | blockComment body => exact ih hw hne h
    | char c =>
      cases w with
      | nil => exact absurd rfl hne
      | cons d w =>
        obtain ⟨rfl, htail⟩ := List.cons_prefix_cons.mp h
        refine List.cons_prefix_cons.mpr ⟨rfl, ?_⟩
        by_cases hnil : w = []
        · rw [hnil]
          exact List.nil_prefix
        · apply ih _ hnil htail
          rw [List.mem_tails] at hw ⊢
          exact (List.suffix_cons d w).trans hw

section
variable {m : ℕ} {x : Lexeme × ℕ} {xs : List (Lexeme × ℕ)}

theorem not_marker_prefix (h : ¬ marker <:+: commentless xs) :
    ¬ marker <+: xs.flatMap (restored m) := fun hp =>
  h (prefix_commentless ((List.mem_tails _ _).mpr (List.suffix_refl _)) (by decide) hp).isInfix

theorem not_underscore_prefix (h : ¬ marker <:+: commentless xs) :
    ¬ ('_' :: marker) <+: xs.flatMap (restored m) := by
  intro hp
  induction xs with
  | nil => exact absurd (List.prefix_nil.mp hp) (List.cons_ne_nil _ _)
  | cons x xs ih =>
    have hxs : ¬ marker <:+: commentless xs := by
      rw [commentless_cons] at h
      exact fun hmark => h (hmark.trans (List.suffix_append _ _).isInfix)
    have hstring : ∀ (l : Lexeme) (n : ℕ) (rest : List Char), Masked l →
        ¬ ('_' :: marker) <+: restored m (l, n) ++ rest := by
      intro l n rest hl hp
      rw [masked_restored hl] at hp
      split_ifs at hp with hn
      · obtain ⟨body, rfl | rfl⟩ := hl
        · exact absurd (List.cons_prefix_cons.mp hp).1 (by decide)
        · exact absurd (List.cons_prefix_cons.mp hp).1 (by decide)
      · rw [toList_placeholder] at hp
        exact absurd (List.cons_prefix_cons.mp (List.cons_prefix_cons.mp hp).2).1 (by decide)
    obtain ⟨l, n⟩ := x
    cases l with
    | char c => exact not_marker_prefix hxs (List.cons_prefix_cons.mp hp).2
    | literal body => exact hstring _ n _ ⟨body, Or.inl rfl⟩ hp
    | quoted body => exact hstring _ n _ ⟨body, Or.inr rfl⟩ hp
    | lineComment body => exact ih hxs hp
    | blockComment body => exact ih hxs hp

/-- One more string comes back. -/
theorem replaceScan_restored {l : Lexeme} (hl : ∀ x ∈ xs, Masked x.1 → x.2 = m → x.1 = l)
    (hmarker : ¬ marker <:+: commentless xs) {n : ℕ}
    (hn : (xs.flatMap (restored m)).length ≤ n) :
    replaceScan (placeholder m) l.text n (xs.flatMap (restored m))
      = xs.flatMap (restored (m + 1)) := by
  induction xs generalizing n with
  | nil => cases n <;> rfl
  | cons x xs ih =>
    rw [List.forall_mem_cons] at hl
    have hxs : ¬ marker <:+: commentless xs := by
      rw [commentless_cons] at hmarker
      exact fun hmark => hmarker (hmark.trans (List.suffix_append _ _).isInfix)
    have hnot := not_marker_prefix (m := m) hxs
    have hunderscore := not_underscore_prefix (m := m) hxs
    have hkept : restored (m + 1) x = restored m x → Quiet (placeholder m) (restored m x)
        (xs.flatMap (restored m)) → replaceScan (placeholder m) l.text n
          ((x :: xs).flatMap (restored m)) = (x :: xs).flatMap (restored (m + 1)) := by
      intro hsame hquiet
      rw [List.flatMap_cons] at hn ⊢
      rw [replaceScan_append hquiet hn, List.flatMap_cons, hsame, ih hl.2 hxs]
      rw [List.length_append] at hn
      omega
    have hstring : Masked x.1 → ∀ (q : Char) (body : List Char), q ∉ placeholder m →
        x.1.text = q :: (body ++ [q]) → x.1.isComment = false →
        replaceScan (placeholder m) l.text n ((x :: xs).flatMap (restored m))
          = (x :: xs).flatMap (restored (m + 1)) := by
      intro hmasked q body hq htext hcomment
      obtain ⟨l', k⟩ := x
      rcases lt_trichotomy k m with hk | hk | hk
      · apply hkept
        · rw [masked_restored hmasked, masked_restored hmasked, if_pos hk, if_pos (by omega)]
        · rw [masked_restored hmasked, if_pos hk, htext]
          apply quiet_string hq
          rw [commentless_cons, hcomment, if_neg Bool.false_ne_true, htext] at hmarker
          exact fun hmark => hmarker (hmark.trans (List.prefix_append _ _).isInfix)
      · -- this is the one
        subst hk
        rw [List.flatMap_cons, masked_restored hmasked, if_neg (lt_irrefl k)] at hn ⊢
        have hne : placeholder k ≠ [] := by
          rw [toList_placeholder]
          exact List.cons_ne_nil _ _
        obtain ⟨n', hn', hreplace⟩ := replaceScan_prefix l.text hne hn
        rw [hreplace, ih hl.2 hxs hn', List.flatMap_cons, masked_restored hmasked,
          if_pos (Nat.lt_succ_self k), ← hl.1 hmasked rfl]
      · apply hkept
        · rw [masked_restored hmasked, masked_restored hmasked, if_neg (by omega),
            if_neg (by omega)]
        · rw [masked_restored hmasked, if_neg (by omega)]
          exact quiet_placeholder hnot hunderscore (by omega)
    obtain ⟨l', k⟩ := x
    cases l' with
    | char c => exact hkept rfl (quiet_char hunderscore c)
    | literal body =>
      exact hstring ⟨body, Or.inl rfl⟩ '\'' body (not_mem_placeholder m (by decide)) rfl rfl
    | quoted body =>
      exact hstring ⟨body, Or.inr rfl⟩ '"' body (not_mem_placeholder m (by decide)) rfl rfl
    | lineComment body => exact hkept rfl trivial
    | blockComment body => exact hkept rfl trivial

end

theorem restoreStrings_restored {xs ys : List (Lexeme × ℕ)} {m : ℕ}
    (hmarker : ¬ marker <:+: commentless xs)
    (hys : ∀ y ∈ ys, ∀ x ∈ xs, Masked x.1 → x.2 = y.2 → x.1 = y.1)
    (hnumbers : ys.map Prod.snd = List.range' m ys.length) :
    restoreStrings (String.ofList (xs.flatMap (restored m)))
      (ys.map fun y => (placeholderText y.2, String.ofList y.1.text))
      = String.ofList (xs.flatMap (restored (m + ys.length))) := by
  induction ys generalizing m with
  | nil => rfl
  | cons y ys ih =>
    rw [List.forall_mem_cons] at hys
    rw [List.map_cons, List.length_cons, List.range'_succ, List.cons.injEq] at hnumbers
    obtain ⟨rfl, hnumbers⟩ := hnumbers
    have hone : replaceText (placeholderText y.2) (String.ofList y.1.text)
        (String.ofList (xs.flatMap (restored y.2)))
        = String.ofList (xs.flatMap (restored (y.2 + 1))) := by
      unfold replaceText
      rw [String.toList_ofList, String.toList_ofList]
      congr 1
      apply replaceScan_restored hys.1 hmarker
      rw [String.length_ofList]
    rw [List.map_cons, restoreStrings, List.foldl_cons, hone]
    rw [List.length_cons, ← Nat.add_assoc, Nat.add_right_comm]
    exact ih hys.2 hnumbers

/-! ## The whole -/

def numberedStatement (ls : List Lexeme) : List (Lexeme × ℕ) :=
  numbered 0 (takenBy singleBody (numbered 0 0 ls)).length ls

def statementStrings (ls : List Lexeme) : List (Lexeme × ℕ) :=
  takenBy singleBody (numberedStatement ls) ++ takenBy doubleBody (numberedStatement ls)

theorem length_takenBy_single (i j i' j' : ℕ) (ls : List Lexeme) :
    (takenBy singleBody (numbered i j ls)).length
      = (takenBy singleBody (numbered i' j' ls)).length := by
  have hcount : ∀ xs : List (Lexeme × ℕ), (takenBy singleBody xs).length
      = (xs.map Prod.fst).countP fun l => (singleBody (l, 0)).isSome := by
    intro xs
    rw [List.countP_map, takenBy, ← List.countP_eq_length_filter]
    refine List.countP_congr fun x _ => ?_
    obtain ⟨l, n⟩ := x
    cases l <;> rfl
  rw [hcount, hcount, map_fst_numbered, map_fst_numbered]

theorem map_snd_statementStrings :
    (statementStrings ls).map Prod.snd = List.range' 0 (statementStrings ls).length := by
  have hcount : (takenBy singleBody (numberedStatement ls)).length
      = (takenBy singleBody (numbered 0 0 ls)).length := length_takenBy_single _ _ _ _ ls
  have hsingle : (takenBy singleBody (numberedStatement ls)).map Prod.snd
      = List.range' 0 (takenBy singleBody (numberedStatement ls)).length :=
    (takenBy_numbered _ _ ls).1
  have hdouble : (takenBy doubleBody (numberedStatement ls)).map Prod.snd
      = List.range' (takenBy singleBody (numberedStatement ls)).length
        (takenBy doubleBody (numberedStatement ls)).length := by
    rw [hcount]
    exact (takenBy_numbered _ _ ls).2
  unfold statementStrings
  rw [List.map_append, hsingle, hdouble, List.length_append, ← List.range'_append_1, Nat.zero_add]

theorem mem_statementStrings {x : Lexeme × ℕ} (hx : x ∈ numberedStatement ls)
    (hmasked : Masked x.1) : x ∈ statementStrings ls := by
  unfold statementStrings takenBy
  rw [List.mem_append, List.mem_filter, List.mem_filter]
  obtain ⟨l, n⟩ := x
  obtain ⟨body, rfl | rfl⟩ := hmasked
  · exact Or.inl ⟨hx, rfl⟩
  · exact Or.inr ⟨hx, rfl⟩

theorem flatMap_restored (m : ℕ) {xs : List (Lexeme × ℕ)}
    (hxs : ∀ x ∈ xs, Masked x.1 → x.2 < m) : xs.flatMap (restored m) = commentless xs := by
  induction xs with
  | nil => rfl
  | cons x xs ih =>
    rw [List.forall_mem_cons] at hxs
    rw [List.flatMap_cons, commentless_cons, ih hxs.2]
    congr 1
    obtain ⟨l, n⟩ := x
    cases l with
    | literal body =>
      have hlt : n < m := hxs.1 ⟨body, Or.inl rfl⟩
      exact if_pos hlt
    | quoted body =>
      have hlt : n < m := hxs.1 ⟨body, Or.inr rfl⟩
      exact if_pos hlt
    | char c => rfl
    | lineComment body => rfl
    | blockComment body => rfl

/-- The passes over a plain statement put a placeholder for each of its literals. -/
theorem extractStrings_text (hlexed : Lexed ls) (hplain : Plain ls) :
    extractStringsWithPlaceholders (String.ofList (text ls)) =
      (String.ofList ((numberedStatement ls).flatMap withoutQuotes),
        (statementStrings ls).map fun x => (placeholderText x.2, String.ofList x.1.text)) := by
  have hsingle : subPlaceholders (singleQuoteStringPattern.pieces (String.ofList (text ls))) {} =
      ((numberedStatement ls).flatMap withoutSingle,
        { counter := (takenBy singleBody (numberedStatement ls)).length
          replacements := (takenBy singleBody (numberedStatement ls)).map fun x =>
            (placeholderText x.2, String.ofList x.1.text) }) := by
    have hfits := fits_single 0 (takenBy singleBody (numbered 0 0 ls)).length hlexed hplain.lexemes
    have hpieces := pieces_delimited (by decide) hfits
    rw [piecesText_pass singleBody_before, flatMap_text_numbered] at hpieces
    unfold singleQuoteStringPattern
    rw [hpieces, subPlaceholders_pass singleBody_before _ {} (takenBy_numbered _ _ _).1]
    have hstage : (fun x : Lexeme × ℕ => if (singleBody x).isSome = true then placeholder x.2
        else x.1.text) = withoutSingle := by
      ext1 ⟨l, n⟩
      cases l <;> rfl
    rw [hstage, List.nil_append, Nat.zero_add]
    rfl
  have hfits := fits_double 0 (takenBy singleBody (numbered 0 0 ls)).length hlexed hplain.lexemes
  have hpieces := pieces_delimited (by decide) hfits
  rw [piecesText_pass doubleBody_before] at hpieces
  have hstage : (fun x : Lexeme × ℕ => if (doubleBody x).isSome = true then placeholder x.2
      else withoutSingle x) = withoutQuotes := by
    ext1 ⟨l, n⟩
    cases l <;> rfl
  have hnumbers := (takenBy_numbered 0 (takenBy singleBody (numbered 0 0 ls)).length ls).2
  have hcount : (takenBy singleBody (numbered 0 0 ls)).length
      = (takenBy singleBody (numberedStatement ls)).length := length_takenBy_single _ _ _ _ ls
  unfold extractStringsWithPlaceholders
  rw [hsingle]
  dsimp only
  unfold doubleQuoteStringPattern
  rw [show (delimited '"').pieces (String.ofList ((numberedStatement ls).flatMap withoutSingle)) =
    _ from hpieces, subPlaceholders_pass doubleBody_before _ _ (by
      rw [hnumbers, hcount]), hstage]
  have hbefore : ∀ x ∈ takenBy doubleBody (numberedStatement ls), withoutSingle x = x.1.text := by
    intro x hx
    obtain ⟨l, n⟩ := x
    cases l with
    | literal body => exact nomatch (List.mem_filter.mp hx).2
    | quoted body => rfl
    | char c => rfl
    | lineComment body => rfl
    | blockComment body => rfl
  have hmap : ((takenBy doubleBody (numberedStatement ls)).map fun x =>
      (placeholderText x.2, String.ofList (withoutSingle x)))
      = (takenBy doubleBody (numberedStatement ls)).map fun x =>
        (placeholderText x.2, String.ofList x.1.text) :=
    List.map_congr_left fun x hx => by rw [hbefore x hx]
  unfold statementStrings
  rw [List.map_append, ← hmap]
  rfl

/-- Of a plain statement the comments are cut and the whitespace is collapsed. -/
theorem normalizeSql_text (hlexed : Lexed ls) (hplain : Plain ls) :
    normalizeSql (String.ofList (text ls)) = String.ofList (text (squeeze .lead ls)) := by
  have hmarker : ¬ marker <:+: commentless (numberedStatement ls) := by
    unfold commentless numberedStatement
    rw [map_fst_numbered]
    exact hplain.marker
  have hnodup : ((statementStrings ls).map Prod.snd).Nodup := by
    rw [map_snd_statementStrings]
    exact List.nodup_range'
  have hbound : ∀ x ∈ numberedStatement ls, Masked x.1 → x.2 < (statementStrings ls).length := by
    intro x hx hmasked
    have hmem := List.mem_map_of_mem (f := Prod.snd) (mem_statementStrings hx hmasked)
    rw [map_snd_statementStrings, List.mem_range'_1] at hmem
    omega
  have hrestore := restoreStrings_restored hmarker
    (fun y hy x hx hmasked hsame => congrArg Prod.fst
      (List.inj_on_of_nodup_map hnodup (mem_statementStrings hx hmasked) hy hsame))
    map_snd_statementStrings
  rw [Nat.zero_add, flatMap_restored _ hbound] at hrestore
  unfold normalizeSql
  rw [extractStrings_text hlexed hplain]
  dsimp only
  have hlines : subLineComments false ((numberedStatement ls).flatMap withoutQuotes)
      = (numberedStatement ls).flatMap withoutLines :=
    subLineComments_numbered _ _ hlexed hplain.lexemes
  have hblocks : subBlockComments ((numberedStatement ls).flatMap withoutLines).length
      ((numberedStatement ls).flatMap withoutLines) = (numberedStatement ls).flatMap (restored 0) :=
    subBlockComments_numbered _ _ hlexed _ le_rfl
  rw [String.toList_ofList, hlines, hblocks, hrestore, strip_joinWords, joinWords_eq,
    String.toList_ofList, text_squeeze]
  unfold commentless numberedStatement
  rw [map_fst_numbered]

end OmnibaseCore.Database
