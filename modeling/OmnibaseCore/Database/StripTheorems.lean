import OmnibaseCore.Database.NormalizeTheorems

/-!
# What the literals leave behind
-/

namespace OmnibaseCore.Database

open Regex Sql

/-! ## Bodies with collapsed whitespace -/

theorem plainBody_cons {q c : Char} {rest : List Char} (hq : c ≠ q) (hbackslash : c ≠ '\\') :
    PlainBody q (c :: rest) ↔ PlainBody q rest := by
  cases rest with
  | nil => simp [PlainBody, hq, hbackslash]
  | cons d rest => rw [PlainBody, if_neg hq, if_neg hbackslash]

theorem collapseOpen_owed (w : List Char) :
    ∃ w', collapseOpen .owed w = ' ' :: w' := by
  induction w with
  | nil => exact ⟨[], rfl⟩
  | cons c w ih =>
    rw [collapseOpen]
    split_ifs
    · exact ih
    · exact ⟨_, rfl⟩

/-- Collapsing blanks keeps the body of a literal one. -/
theorem plainBody_collapseOpen {q : Char} (hq : isSpace q = false) {g : Gap} {w : List Char}
    (h : PlainBody q w) : PlainBody q (collapseOpen g w) := by
  have hblank : ' ' ≠ q := fun h => by
    rw [← h] at hq
    exact absurd hq (by decide)
  have hpending : ∀ g : Gap, ∀ w, PlainBody q (g.pending ++ w) ↔ PlainBody q w := by
    intro g w
    cases g with
    | owed => exact plainBody_cons hblank (by decide)
    | lead => exact Iff.rfl
    | inside => exact Iff.rfl
  have hgen : ∀ n (g : Gap) (w : List Char), w.length ≤ n → PlainBody q w →
      PlainBody q (collapseOpen g w) := by
    intro n
    induction n with
    | zero =>
      intro g w hn _
      rw [List.length_eq_zero_iff.mp (Nat.le_zero.mp hn)]
      exact (List.append_nil g.pending ▸ hpending g []).mpr trivial
    | succ n ih =>
      intro g w hn hw
      match w, hw with
      | [], _ => exact (List.append_nil g.pending ▸ hpending g []).mpr trivial
      | [c], hw =>
        rw [collapseOpen]
        split_ifs with hc
        · exact ih _ [] (by simp) trivial
        · rw [hpending]
          exact hw
      | c :: d :: rest, hw =>
        rw [PlainBody] at hw
        rw [List.length_cons, List.length_cons] at hn
        split_ifs at hw with hcq hbackslash
        · -- a doubled quote is no whitespace
          obtain ⟨hd, hw⟩ := hw
          rw [hcq, hd, collapseOpen, hq, if_neg Bool.false_ne_true, hpending, collapseOpen, hq,
            if_neg Bool.false_ne_true]
          show PlainBody q (q :: q :: collapseOpen .inside rest)
          rw [PlainBody, if_pos rfl]
          exact ⟨rfl, ih _ rest (by omega) hw⟩
        · -- whatever is escaped stays so, or becomes a blank
          subst hbackslash
          have hspace : isSpace '\\' = false := by decide
          rw [collapseOpen, hspace, if_neg Bool.false_ne_true, hpending, collapseOpen]
          split_ifs with hd
          · obtain ⟨w', hw'⟩ := collapseOpen_owed rest
            have htail := ih .owed rest (by omega) hw.2.2
            show PlainBody q ('\\' :: collapseOpen .owed rest)
            rw [hw'] at htail ⊢
            rw [PlainBody, if_neg hcq, if_pos rfl]
            exact ⟨hblank, by decide, (plainBody_cons hblank (by decide)).mp htail⟩
          · show PlainBody q ('\\' :: d :: collapseOpen .inside rest)
            rw [PlainBody, if_neg hcq, if_pos rfl]
            exact ⟨hw.1, hw.2.1, ih _ rest (by omega) hw.2.2⟩
        · rw [collapseOpen]
          split_ifs with hc
          · exact ih _ (d :: rest) (by rw [List.length_cons]; omega) hw
          · rw [hpending, plainBody_cons hcq hbackslash]
            exact ih _ (d :: rest) (by rw [List.length_cons]; omega) hw
  exact hgen w.length g w le_rfl h

theorem mem_collapseOpen {g : Gap} {w : List Char} {c : Char} (h : c ∈ collapseOpen g w) :
    c = ' ' ∨ c ∈ w := by
  have hpending : ∀ g : Gap, ∀ d ∈ g.pending, d = ' ' := by
    intro g d hd
    cases g with
    | owed => exact List.mem_singleton.mp hd
    | lead => exact nomatch hd
    | inside => exact nomatch hd
  induction w generalizing g with
  | nil => exact Or.inl (hpending g c h)
  | cons d w ih =>
    rw [collapseOpen] at h
    split_ifs at h
    · exact (ih h).imp_right (List.mem_cons_of_mem d)
    · rcases List.mem_append.mp h with h | h
      · exact Or.inl (hpending g c h)
      · rcases List.mem_cons.mp h with rfl | h
        · exact Or.inr List.mem_cons_self
        · exact (ih h).imp_right (List.mem_cons_of_mem d)

/-! ## Erasing -/

def pieceChars (ps : List Piece) : List Char :=
  ps.filterMap fun piece =>
    match piece with
    | .char c => some c
    | .found _ => none

theorem erase_delimited {q : Char} (hq : q ≠ '\\') {ps : List Piece} (hps : Fits q ps) :
    (delimited q).erase (String.ofList (piecesText ps)) = String.ofList (pieceChars ps) := by
  unfold erase
  rw [pieces_delimited hq hps]
  rfl

theorem pieceChars_append (ps ps' : List Piece) :
    pieceChars (ps ++ ps') = pieceChars ps ++ pieceChars ps' := List.filterMap_append

theorem pieceChars_chars (w : List Char) : pieceChars (w.map Piece.char) = w := by
  unfold pieceChars
  rw [List.filterMap_map]
  exact List.filterMap_some

def singlePieces : Lexeme → List Piece
  | .literal body => [.found (delimitedMatch '\'' body)]
  | l => l.text.map Piece.char

def doublePieces : Lexeme → List Piece
  | .quoted body => [.found (delimitedMatch '"' body)]
  | l => l.text.map Piece.char

variable (ls : List Lexeme)

theorem piecesText_singlePieces :
    piecesText (ls.flatMap singlePieces) = text ls := by
  induction ls with
  | nil => rfl
  | cons l ls ih =>
    rw [List.flatMap_cons, piecesText_append, ih, text_cons]
    congr 1
    cases l with
    | literal body => simp [singlePieces, Piece.text, delimitedMatch, Lexeme.text]
    | char c => exact piecesText_chars _
    | quoted body => exact piecesText_chars _
    | lineComment body => exact piecesText_chars _
    | blockComment body => exact piecesText_chars _

theorem piecesText_doublePieces :
    piecesText (ls.flatMap doublePieces) = text ls := by
  induction ls with
  | nil => rfl
  | cons l ls ih =>
    rw [List.flatMap_cons, piecesText_append, ih, text_cons]
    congr 1
    cases l with
    | quoted body => simp [doublePieces, Piece.text, delimitedMatch, Lexeme.text]
    | char c => exact piecesText_chars _
    | literal body => exact piecesText_chars _
    | lineComment body => exact piecesText_chars _
    | blockComment body => exact piecesText_chars _

theorem pieceChars_singlePieces :
    pieceChars (ls.flatMap singlePieces) = text (cutLiterals ls) := by
  induction ls with
  | nil => rfl
  | cons l ls ih =>
    rw [List.flatMap_cons, pieceChars_append, ih]
    cases l with
    | literal body => rfl
    | char c => exact congrArg (· ++ text (cutLiterals ls)) (pieceChars_chars _)
    | quoted body => exact congrArg (· ++ text (cutLiterals ls)) (pieceChars_chars _)
    | lineComment body => exact congrArg (· ++ text (cutLiterals ls)) (pieceChars_chars _)
    | blockComment body => exact congrArg (· ++ text (cutLiterals ls)) (pieceChars_chars _)

/-! ## Squeezed statements -/

section
variable {g : Gap} {ls : List Lexeme}

theorem head?_cutLiterals_squeeze_owed {c : Char}
    (h : (text (cutLiterals (squeeze .owed ls))).head? = some c) : c = ' ' := by
  induction ls with
  | nil => exact nomatch h
  | cons l ls ih =>
    cases l with
    | char d =>
      rw [squeeze] at h
      split_ifs at h
      · exact ih h
      · exact (Option.some.inj h).symm
    | literal body => exact (Option.some.inj h).symm
    | quoted body => exact (Option.some.inj h).symm
    | lineComment body => exact ih h
    | blockComment body => exact ih h

theorem head?_cutLiterals_squeeze {c : Char} (hc : isSpace c = false)
    (h : (text (cutLiterals (squeeze .inside ls))).head? = some c) :
    (text (cutLiterals (cutComments ls))).head? = some c := by
  induction ls with
  | nil => exact nomatch h
  | cons l ls ih =>
    cases l with
    | char d =>
      rw [squeeze] at h
      split_ifs at h
      · rw [head?_cutLiterals_squeeze_owed h] at hc
        exact absurd hc (by decide)
      · exact h
    | literal body => exact ih h
    | quoted body => exact h
    | lineComment body => exact ih h
    | blockComment body => exact ih h

theorem fits_pending {q : Char} (hq : q ≠ ' ') (g : Gap) {ps : List Piece} (hps : Fits q ps) :
    Fits q (g.pending.map Piece.char ++ ps) := by
  refine fits_append_chars (fun h => ?_) hps
  cases g with
  | owed => exact hq (List.mem_singleton.mp h)
  | lead => exact nomatch h
  | inside => exact nomatch h

theorem flatMap_pending (f : Lexeme → List Piece) (hf : ∀ c, f (.char c) = [.char c]) (g : Gap) :
    (g.pending.map Lexeme.char).flatMap f = g.pending.map Piece.char := by
  cases g with
  | owed =>
    show f (.char ' ') ++ [] = [.char ' ']
    rw [hf, List.append_nil]
  | lead => rfl
  | inside => rfl

theorem fits_singlePieces (hlexed : Lexed (cutComments ls)) (hplain : ∀ l ∈ ls, PlainLexeme l) :
    Fits '\'' ((squeeze g ls).flatMap singlePieces) := by
  induction ls generalizing g with
  | nil => trivial
  | cons l ls ih =>
    rw [List.forall_mem_cons] at hplain
    cases l with
    | char c =>
      obtain ⟨hreads, hlexed⟩ := hlexed
      rw [squeeze]
      split_ifs
      · exact ih hlexed hplain.2
      · rw [List.flatMap_append, flatMap_pending singlePieces fun _ => rfl]
        apply fits_pending (by decide)
        exact ⟨hreads.1, ih hlexed hplain.2⟩
    | literal body =>
      obtain ⟨hreads, hlexed⟩ := hlexed
      rw [squeeze, List.flatMap_append, flatMap_pending singlePieces fun _ => rfl]
      apply fits_pending (by decide)
      refine ⟨⟨_, plainBody_collapseOpen (by decide) hplain.1, rfl⟩, fun h => hreads.2 ?_,
        ih hlexed hplain.2⟩
      have hhead : (piecesText ((squeeze .inside ls).flatMap singlePieces)).head? = some '\'' := h
      rw [piecesText_singlePieces, text_squeeze] at hhead
      exact head?_of_collapse_inside (by decide) hhead
    | quoted body =>
      obtain ⟨-, hlexed⟩ := hlexed
      rw [squeeze, List.flatMap_append, flatMap_pending singlePieces fun _ => rfl]
      apply fits_pending (by decide)
      refine fits_append_chars (fun h => ?_) (ih hlexed hplain.2)
      have hmem : '\'' ∈ '"' :: (collapseOpen .inside body ++ ['"']) := h
      simp only [List.mem_cons, List.mem_append, List.not_mem_nil, or_false] at hmem
      rcases hmem with hquote | hbody | hquote
      · exact absurd hquote (by decide)
      · rcases mem_collapseOpen hbody with hblank | hbody
        · exact absurd hblank (by decide)
        · exact hplain.1.2 hbody
      · exact absurd hquote (by decide)
    | lineComment body => exact ih hlexed hplain.2
    | blockComment body => exact ih hlexed hplain.2

theorem fits_doublePieces (hlexed : Lexed (cutLiterals (cutComments ls)))
    (hplain : ∀ l ∈ ls, PlainLexeme l) :
    Fits '"' ((cutLiterals (squeeze g ls)).flatMap doublePieces) := by
  have hcut : ∀ (g : Gap) (ls' : List Lexeme),
      (cutLiterals (g.pending.map Lexeme.char ++ ls')).flatMap doublePieces
        = g.pending.map Piece.char ++ (cutLiterals ls').flatMap doublePieces := by
    intro g ls'
    cases g with
    | owed => rfl
    | lead => rfl
    | inside => rfl
  induction ls generalizing g with
  | nil => trivial
  | cons l ls ih =>
    rw [List.forall_mem_cons] at hplain
    cases l with
    | char c =>
      obtain ⟨hreads, hlexed⟩ := hlexed
      rw [squeeze]
      split_ifs
      · exact ih hlexed hplain.2
      · rw [hcut]
        apply fits_pending (by decide)
        exact ⟨hreads.2.1, ih hlexed hplain.2⟩
    | literal body =>
      rw [squeeze, hcut]
      apply fits_pending (by decide)
      exact ih hlexed hplain.2
    | quoted body =>
      obtain ⟨hreads, hlexed⟩ := hlexed
      rw [squeeze, hcut]
      apply fits_pending (by decide)
      refine ⟨⟨_, plainBody_collapseOpen (by decide) hplain.1.1, rfl⟩, fun h => hreads.2 ?_,
        ih hlexed hplain.2⟩
      have hhead : (piecesText ((cutLiterals (squeeze .inside ls)).flatMap doublePieces)).head?
        = some '"' := h
      rw [piecesText_doublePieces] at hhead
      exact head?_cutLiterals_squeeze (by decide) hhead
    | lineComment body => exact ih hlexed hplain.2
    | blockComment body => exact ih hlexed hplain.2

theorem pieceChars_doublePieces_squeeze (g : Gap) (ls : List Lexeme) :
    pieceChars ((cutLiterals (squeeze g ls)).flatMap doublePieces) = bare (squeeze g ls) := by
  have hcut : ∀ (g : Gap) (ls' : List Lexeme),
      pieceChars ((cutLiterals ls').flatMap doublePieces) = bare ls' →
      pieceChars ((cutLiterals (g.pending.map Lexeme.char ++ ls')).flatMap doublePieces)
        = bare (g.pending.map Lexeme.char ++ ls') := by
    intro g ls' h
    cases g with
    | owed => exact congrArg (' ' :: ·) h
    | lead => exact h
    | inside => exact h
  induction ls generalizing g with
  | nil => rfl
  | cons l ls ih =>
    cases l with
    | char c =>
      rw [squeeze]
      split_ifs
      · exact ih _
      · exact hcut g _ (congrArg (c :: ·) (ih _))
    | literal body => exact hcut g _ (ih _)
    | quoted body => exact hcut g _ (ih _)
    | lineComment body => exact ih g
    | blockComment body => exact ih g

/-- The literals go. -/
theorem eraseSingle_squeeze (hplain : Plain ls) :
    singleQuoteStringPattern.erase (String.ofList (text (squeeze g ls)))
      = String.ofList (text (cutLiterals (squeeze g ls))) := by
  have herase := erase_delimited (by decide)
    (fits_singlePieces (g := g) hplain.comments hplain.lexemes)
  rwa [piecesText_singlePieces, pieceChars_singlePieces] at herase

theorem stripSqlStrings_squeeze (hplain : Plain ls) :
    stripSqlStrings (String.ofList (text (squeeze g ls))) = String.ofList (bare (squeeze g ls)) := by
  have herase := erase_delimited (by decide)
    (fits_doublePieces (g := g) hplain.literals hplain.lexemes)
  rw [piecesText_doublePieces, pieceChars_doublePieces_squeeze] at herase
  unfold stripSqlStrings
  rw [eraseSingle_squeeze hplain]
  exact herase

theorem stripSqlStrings_normalizeSql (hlexed : Lexed ls) (hplain : Plain ls) :
    stripSqlStrings (normalizeSql (String.ofList (text ls)))
      = String.ofList (bare (squeeze .lead ls)) := by
  rw [normalizeSql_text hlexed hplain, stripSqlStrings_squeeze hplain]

end

end OmnibaseCore.Database
