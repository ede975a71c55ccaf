import OmnibaseCore.Python.Collapse

/-!
# The lexemes of SQL

A text of SQL is a list of lexemes: literals between single quotes and identifiers between double
quotes, in which a doubled quote stands for one, comments from `--` to the end of the line and
between `/*` and `*/`, and single characters. `Lexed` says that a list of lexemes is what its text
reads as. `squeeze` cuts the comments and collapses the whitespace, lexeme by lexeme
(`text_squeeze`).
-/

namespace OmnibaseCore.Sql

inductive Lexeme
  | char (c : Char)
  | literal (body : List Char)
  | quoted (body : List Char)
  | lineComment (body : List Char)
  | blockComment (body : List Char)
deriving DecidableEq

def Lexeme.text : Lexeme → List Char
  | .char c => [c]
  | .literal body => '\'' :: (body ++ ['\''])
  | .quoted body => '"' :: (body ++ ['"'])
  | .lineComment body => '-' :: '-' :: body
  | .blockComment body => '/' :: '*' :: (body ++ ['*', '/'])

def text (ls : List Lexeme) : List Char := ls.flatMap Lexeme.text

@[simp] theorem text_nil : text [] = [] := rfl

@[simp] theorem text_cons (l : Lexeme) (ls : List Lexeme) : text (l :: ls) = l.text ++ text ls := rfl

@[simp] theorem text_append (ls ls' : List Lexeme) : text (ls ++ ls') = text ls ++ text ls' := by
  unfold text
  rw [List.flatMap_append]

@[simp] theorem text_chars (w : List Char) : text (w.map Lexeme.char) = w := by
  induction w with
  | nil => rfl
  | cons c w ih =>
    rw [List.map_cons, text_cons, ih]
    rfl

/-! ## What a text reads as -/

/-- Every `q` is doubled. -/
def Doubled (q : Char) : List Char → Prop
  | [] => True
  | [c] => c ≠ q
  | c :: d :: rest => if c = q then d = q ∧ Doubled q rest else Doubled q (d :: rest)

instance Doubled.decidable (q : Char) : ∀ l, Decidable (Doubled q l)
  | [] => inferInstanceAs (Decidable True)
  | [c] => inferInstanceAs (Decidable (c ≠ q))
  | c :: d :: rest =>
    have := Doubled.decidable q rest
    have := Doubled.decidable q (d :: rest)
    inferInstanceAs (Decidable (if c = q then d = q ∧ Doubled q rest else Doubled q (d :: rest)))

/-- What doubled `q`s stand for. -/
def undouble (q : Char) : List Char → List Char
  | [] => []
  | [c] => [c]
  | c :: d :: rest => if c = q ∧ d = q then q :: undouble q rest else c :: undouble q (d :: rest)

/-- There is no `*/`. -/
def Unclosed : List Char → Prop
  | [] => True
  | [_] => True
  | c :: d :: rest => ¬ (c = '*' ∧ d = '/') ∧ Unclosed (d :: rest)

instance Unclosed.decidable : ∀ l, Decidable (Unclosed l)
  | [] => inferInstanceAs (Decidable True)
  | [_] => inferInstanceAs (Decidable True)
  | c :: d :: rest =>
    have := Unclosed.decidable (d :: rest)
    inferInstanceAs (Decidable (¬ (c = '*' ∧ d = '/') ∧ Unclosed (d :: rest)))

/-- A text that begins with the lexeme reads as the lexeme, given what comes behind it. -/
def Lexeme.Reads : Lexeme → List Char → Prop
  | .char c, rest =>
    c ≠ '\'' ∧ c ≠ '"' ∧ ¬ (c = '-' ∧ rest.head? = some '-') ∧ ¬ (c = '/' ∧ rest.head? = some '*')
  | .literal body, rest => Doubled '\'' body ∧ rest.head? ≠ some '\''
  | .quoted body, rest => Doubled '"' body ∧ rest.head? ≠ some '"'
  | .lineComment body, rest => '\n' ∉ body ∧ ∀ c ∈ rest.head?, c = '\n'
  | .blockComment body, _ => Unclosed (body ++ ['*'])

instance Lexeme.Reads.decidable : ∀ (l : Lexeme) (rest : List Char), Decidable (l.Reads rest)
  | .char c, rest => inferInstanceAs (Decidable (c ≠ '\'' ∧ c ≠ '"' ∧
      ¬ (c = '-' ∧ rest.head? = some '-') ∧ ¬ (c = '/' ∧ rest.head? = some '*')))
  | .literal body, rest =>
    inferInstanceAs (Decidable (Doubled '\'' body ∧ rest.head? ≠ some '\''))
  | .quoted body, rest => inferInstanceAs (Decidable (Doubled '"' body ∧ rest.head? ≠ some '"'))
  | .lineComment body, rest =>
    inferInstanceAs (Decidable ('\n' ∉ body ∧ ∀ c ∈ rest.head?, c = '\n'))
  | .blockComment body, _ => inferInstanceAs (Decidable (Unclosed (body ++ ['*'])))

def Lexed : List Lexeme → Prop
  | [] => True
  | l :: ls => l.Reads (text ls) ∧ Lexed ls

instance Lexed.decidable : ∀ ls, Decidable (Lexed ls)
  | [] => inferInstanceAs (Decidable True)
  | l :: ls =>
    have := Lexed.decidable ls
    inferInstanceAs (Decidable (l.Reads (text ls) ∧ Lexed ls))

/-! ## What is left of a text -/

def Lexeme.isComment : Lexeme → Bool
  | .lineComment _ => true
  | .blockComment _ => true
  | _ => false

def Lexeme.isLiteral : Lexeme → Bool
  | .literal _ => true
  | _ => false

def cutComments (ls : List Lexeme) : List Lexeme := ls.filter fun l => !l.isComment

def cutLiterals (ls : List Lexeme) : List Lexeme := ls.filter fun l => !l.isLiteral

/-- The characters outside of comments, literals and quoted identifiers. -/
def bare (ls : List Lexeme) : List Char :=
  ls.filterMap fun l =>
    match l with
    | .char c => some c
    | _ => none

def squeeze : Gap → List Lexeme → List Lexeme
  | _, [] => []
  | g, .char c :: ls =>
    if isSpace c then squeeze g.skip ls
    else g.pending.map Lexeme.char ++ .char c :: squeeze .inside ls
  | g, .literal body :: ls =>
    g.pending.map Lexeme.char ++ .literal (collapseOpen .inside body) :: squeeze .inside ls
  | g, .quoted body :: ls =>
    g.pending.map Lexeme.char ++ .quoted (collapseOpen .inside body) :: squeeze .inside ls
  | g, .lineComment _ :: ls => squeeze g ls
  | g, .blockComment _ :: ls => squeeze g ls

theorem collapse_between {q : Char} (hq : isSpace q = false) (g : Gap) (body rest : List Char) :
    collapse g (q :: (body ++ q :: rest))
      = g.pending ++ q :: (collapseOpen .inside body ++ q :: collapse .inside rest) := by
  rw [collapse, hq, if_neg Bool.false_ne_true, collapse_append_cons hq]

/-- Squeezing lexemes collapses their text. -/
theorem text_squeeze (g : Gap) (ls : List Lexeme) :
    text (squeeze g ls) = collapse g (text (cutComments ls)) := by
  induction ls generalizing g with
  | nil => rfl
  | cons l ls ih =>
    cases l with
    | char c =>
      show _ = collapse g (c :: text (cutComments ls))
      rw [squeeze, collapse]
      by_cases hc : isSpace c = true
      · rw [if_pos hc, if_pos hc]
        exact ih g.skip
      · rw [if_neg hc, if_neg hc, text_append, text_chars, text_cons, ih]
        rfl
    | literal body =>
      show _ = collapse g ('\'' :: (body ++ ['\'']) ++ text (cutComments ls))
      rw [squeeze, text_append, text_chars, text_cons, ih, List.cons_append, List.append_assoc,
        List.singleton_append, collapse_between (by decide)]
      simp [Lexeme.text]
    | quoted body =>
      show _ = collapse g ('"' :: (body ++ ['"']) ++ text (cutComments ls))
      rw [squeeze, text_append, text_chars, text_cons, ih, List.cons_append, List.append_assoc,
        List.singleton_append, collapse_between (by decide)]
      simp [Lexeme.text]
    | lineComment body => exact ih g
    | blockComment body => exact ih g

/-! ## Characters that are left -/

def behind : Gap → List Lexeme → Gap
  | g, [] => g
  | g, .char c :: ls => if isSpace c then behind g.skip ls else behind .inside ls
  | _, .literal _ :: ls => behind .inside ls
  | _, .quoted _ :: ls => behind .inside ls
  | g, .lineComment _ :: ls => behind g ls
  | g, .blockComment _ :: ls => behind g ls

@[simp] theorem bare_append (ls ls' : List Lexeme) : bare (ls ++ ls') = bare ls ++ bare ls' :=
  List.filterMap_append

@[simp] theorem bare_chars (w : List Char) : bare (w.map Lexeme.char) = w := by
  unfold bare
  rw [List.filterMap_map]
  exact List.filterMap_some

theorem squeeze_append (g : Gap) (ls ls' : List Lexeme) :
    squeeze g (ls ++ ls') = squeeze g ls ++ squeeze (behind g ls) ls' := by
  induction ls generalizing g with
  | nil => rfl
  | cons l ls ih =>
    cases l with
    | char c =>
      rw [List.cons_append, squeeze, squeeze, behind]
      split_ifs
      · exact ih _
      · rw [ih, List.append_assoc, List.cons_append]
    | literal body => rw [List.cons_append, squeeze, squeeze, behind, ih, List.append_assoc,
        List.cons_append]
    | quoted body => rw [List.cons_append, squeeze, squeeze, behind, ih, List.append_assoc,
        List.cons_append]
    | lineComment body => exact ih g
    | blockComment body => exact ih g

theorem behind_append (g : Gap) (ls ls' : List Lexeme) :
    behind g (ls ++ ls') = behind (behind g ls) ls' := by
  induction ls generalizing g with
  | nil => rfl
  | cons l ls ih =>
    cases l with
    | char c =>
      rw [List.cons_append, behind, behind]
      split_ifs
      · exact ih _
      · exact ih _
    | literal body => exact ih _
    | quoted body => exact ih _
    | lineComment body => exact ih g
    | blockComment body => exact ih g

theorem squeeze_word {w : List Char} (hw : ∀ c ∈ w, isSpace c = false) (hne : w ≠ []) (g : Gap)
    (ls : List Lexeme) : squeeze g (w.map Lexeme.char ++ ls)
      = g.pending.map Lexeme.char ++ w.map Lexeme.char ++ squeeze .inside ls := by
  induction w generalizing g with
  | nil => exact absurd rfl hne
  | cons c w ih =>
    rw [List.forall_mem_cons] at hw
    rw [List.map_cons, List.cons_append, squeeze, hw.1, if_neg Bool.false_ne_true]
    cases w with
    | nil => simp
    | cons d w =>
      rw [ih hw.2 (List.cons_ne_nil d w)]
      simp [Gap.pending]

variable {ls : List Lexeme}

theorem mem_bare_squeeze {c : Char} (hc : isSpace c = false) {g : Gap} (h : c ∈ bare ls) :
    c ∈ bare (squeeze g ls) := by
  induction ls generalizing g with
  | nil => exact h
  | cons l ls ih =>
    have hskip : ∀ (l' : Lexeme) (g' : Gap), c ∈ bare ls →
        c ∈ bare (g.pending.map Lexeme.char ++ l' :: squeeze g' ls) := by
      intro l' g' hmem
      rw [bare_append, ← List.singleton_append, bare_append]
      exact List.mem_append_right _ (List.mem_append_right _ (ih hmem))
    cases l with
    | char d =>
      rw [squeeze]
      rcases List.mem_cons.mp (show c ∈ d :: bare ls from h) with rfl | hmem
      · rw [hc, if_neg Bool.false_ne_true, bare_append]
        exact List.mem_append_right _ List.mem_cons_self
      · split_ifs
        · exact ih hmem
        · exact hskip _ _ hmem
    | literal body => exact hskip _ _ h
    | quoted body => exact hskip _ _ h
    | lineComment body => exact ih h
    | blockComment body => exact ih h

theorem head?_bare_squeeze_owed : ∀ c ∈ (bare (squeeze .owed ls)).head?, c = ' ' := by
  induction ls with
  | nil => exact fun c hc => nomatch hc
  | cons l ls ih =>
    intro c hc
    cases l with
    | char d =>
      rw [squeeze] at hc
      split_ifs at hc
      · exact ih c hc
      · exact (Option.some.inj hc).symm
    | literal body => exact (Option.some.inj hc).symm
    | quoted body => exact (Option.some.inj hc).symm
    | lineComment body => exact ih c hc
    | blockComment body => exact ih c hc

theorem head?_bare_squeeze_inside :
    ∀ c ∈ (bare (squeeze .inside ls)).head?, c = ' ' ∨ c ∈ (bare ls).head? := by
  induction ls with
  | nil => exact fun c hc => nomatch hc
  | cons l ls ih =>
    intro c hc
    cases l with
    | char d =>
      rw [squeeze] at hc
      split_ifs at hc
      · exact Or.inl (head?_bare_squeeze_owed c hc)
      · exact Or.inr hc
    | literal body => exact ih c hc
    | quoted body => exact ih c hc
    | lineComment body => exact ih c hc
    | blockComment body => exact ih c hc

theorem squeeze_of_behind_lead (h : behind .lead ls = .lead) : squeeze .lead ls = [] := by
  have hinside : ∀ ls : List Lexeme, ∀ g, g ≠ .lead → behind g ls ≠ .lead := by
    intro ls
    induction ls with
    | nil => exact fun g hg => hg
    | cons l ls ih =>
      intro g hg
      cases l with
      | char c =>
        rw [behind]
        split_ifs
        · refine ih _ ?_
          cases g with
          | lead => exact absurd rfl hg
          | inside => exact Gap.noConfusion
          | owed => exact Gap.noConfusion
        · exact ih _ Gap.noConfusion
      | literal body => exact ih _ Gap.noConfusion
      | quoted body => exact ih _ Gap.noConfusion
      | lineComment body => exact ih _ hg
      | blockComment body => exact ih _ hg
  induction ls with
  | nil => rfl
  | cons l ls ih =>
    cases l with
    | char c =>
      rw [behind] at h
      rw [squeeze]
      split_ifs at h ⊢
      · exact ih h
      · exact absurd h (hinside ls _ Gap.noConfusion)
    | literal body => exact absurd h (hinside ls _ Gap.noConfusion)
    | quoted body => exact absurd h (hinside ls _ Gap.noConfusion)
    | lineComment body => exact ih h
    | blockComment body => exact ih h

theorem getLast?_bare_squeeze :
    ∀ c ∈ (bare (squeeze .lead ls) ++ (behind .lead ls).pending).getLast?,
      c = ' ' ∨ c ∈ (bare ls).getLast? := by
  induction ls using List.reverseRecOn with
  | nil => exact fun c hc => nomatch hc
  | append_singleton ls l ih =>
    intro c hc
    rw [squeeze_append, behind_append, bare_append] at hc
    rw [bare_append]
    cases l with
    | char d =>
      by_cases hd : isSpace d = true
      · rw [squeeze, behind, if_pos hd, if_pos hd, squeeze, behind, show bare [] = [] from rfl,
          List.append_nil] at hc
        cases hgap : behind .lead ls with
        | lead =>
          rw [hgap, squeeze_of_behind_lead hgap] at hc
          exact nomatch hc
        | inside =>
          rw [hgap] at hc
          exact Or.inl (by simpa [Gap.skip, Gap.pending] using hc.symm)
        | owed =>
          rw [hgap] at hc
          exact Or.inl (by simpa [Gap.skip, Gap.pending] using hc.symm)
      · right
        rw [squeeze, behind, if_neg hd, if_neg hd] at hc
        simpa [bare, squeeze, behind, Gap.pending] using hc
    | literal body =>
      rw [squeeze, squeeze, bare_append, bare_chars] at hc
      simp only [bare, behind, Gap.pending, List.filterMap_cons, List.filterMap_nil,
        List.append_nil] at hc ⊢
      exact ih c hc
    | quoted body =>
      rw [squeeze, squeeze, bare_append, bare_chars] at hc
      simp only [bare, behind, Gap.pending, List.filterMap_cons, List.filterMap_nil,
        List.append_nil] at hc ⊢
      exact ih c hc
    | lineComment body =>
      simp only [bare, squeeze, behind, List.filterMap_cons, List.filterMap_nil,
        List.append_nil] at hc ⊢
      exact ih c hc
    | blockComment body =>
      simp only [bare, squeeze, behind, List.filterMap_cons, List.filterMap_nil,
        List.append_nil] at hc ⊢
      exact ih c hc

end OmnibaseCore.Sql
