import OmnibaseCore.Regex.Search

/-!
# Delimited texts

The pattern `q(?:[^q\\]|\\.|qq)*q` for a text between two `q`s, in which a backslash makes the next
character an ordinary one and a doubled `q` stands for one of them. Where every `q` of a text opens,
closes or doubles, and no backslash stands in front of one, a scan finds the delimited texts as
they stand (`scan_delimited`).
-/

namespace OmnibaseCore

namespace Regex

/-- One character of a delimited text, in the order of the pattern. -/
def delimitedUnit (q : Char) : Regex :=
  alt (chars fun c => c ≠ q && c ≠ '\\')
    (alt (seq (char '\\') (chars fun c => c ≠ '\n')) (seq (char q) (char q)))

/-- `q(?:[^q\\]|\\.|qq)*q` -/
def delimited (q : Char) : Regex :=
  seq (char q) (seq (star (delimitedUnit q)) (char q))

/-- What may stand between two `q`s: a `q` is doubled, and a backslash stands in front of neither a
`q` nor the end of a line. -/
def PlainBody (q : Char) : List Char → Prop
  | [] => True
  | [c] => c ≠ q ∧ c ≠ '\\'
  | c :: d :: rest =>
    if c = q then d = q ∧ PlainBody q rest
    else if c = '\\' then d ≠ q ∧ d ≠ '\n' ∧ PlainBody q rest
    else PlainBody q (d :: rest)

instance PlainBody.decidable (q : Char) : ∀ l, Decidable (PlainBody q l)
  | [] => inferInstanceAs (Decidable True)
  | [c] => inferInstanceAs (Decidable (c ≠ q ∧ c ≠ '\\'))
  | c :: d :: rest =>
    have := PlainBody.decidable q rest
    have := PlainBody.decidable q (d :: rest)
    inferInstanceAs (Decidable (if c = q then d = q ∧ PlainBody q rest
      else if c = '\\' then d ≠ q ∧ d ≠ '\n' ∧ PlainBody q rest else PlainBody q (d :: rest)))

/-- `pattern.sub("", text)`. -/
def erase (r : Regex) (s : String) : String :=
  String.ofList ((r.pieces s).filterMap fun piece =>
    match piece with
    | .char c => some c
    | .found _ => none)

def delimitedMatch (q : Char) (body : List Char) : Match :=
  { taken := q :: (body ++ [q]), groups := [] }

/-! ## One match -/

section
variable {q : Char}

variable {rest : List Char}

theorem run_char_cons {β : Type} {c d : Char} {b : Bool} {groups : List (String × String)}
    {k : Place → Option β} : run (char c) ⟨b, d :: rest, groups⟩ k
      = if d = c then k ⟨false, rest, groups⟩ else none := by
  unfold char
  rw [run_chars_cons rfl]
  have hadvance : Place.advance ⟨b, d :: rest, groups⟩ 1 = ⟨false, rest, groups⟩ := by
    simp [Place.advance]
  rw [hadvance]
  simp only [decide_eq_true_eq]

variable {k : Place → Option Place} {s : Place}

theorem run_unit_plain {c : Char} (hq : c ≠ q) (hbackslash : c ≠ '\\')
    (hk : k ⟨false, rest, []⟩ = some s) :
    run (delimitedUnit q) ⟨false, c :: rest, []⟩ k = some s := by
  unfold delimitedUnit
  rw [run_alt, run_chars_cons rfl]
  have hadvance : Place.advance ⟨false, c :: rest, []⟩ 1 = ⟨false, rest, []⟩ := by
    simp [Place.advance]
  rw [if_pos (by simp [hq, hbackslash]), hadvance, hk]
  rfl

theorem run_unit_escape {d : Char} (hline : d ≠ '\n') (hk : k ⟨false, rest, []⟩ = some s) :
    run (delimitedUnit q) ⟨false, '\\' :: d :: rest, []⟩ k = some s := by
  unfold delimitedUnit
  rw [run_alt, run_chars_cons rfl, if_neg (by simp), run_alt, run_seq, run_char_cons, if_pos rfl,
    run_chars_cons rfl, if_pos (by simpa using hline)]
  have hadvance : Place.advance ⟨false, d :: rest, []⟩ 1 = ⟨false, rest, []⟩ := by
    simp [Place.advance]
  rw [hadvance, hk]
  rfl

theorem run_unit_doubled (hq : q ≠ '\\') (hk : k ⟨false, rest, []⟩ = some s) :
    run (delimitedUnit q) ⟨false, q :: q :: rest, []⟩ k = some s := by
  unfold delimitedUnit
  rw [run_alt, run_chars_cons rfl, if_neg (by simp), run_alt, run_seq, run_char_cons, if_neg hq,
    run_seq, run_char_cons, if_pos rfl, run_char_cons, if_pos rfl, hk]
  rfl

theorem run_unit_closing (hq : q ≠ '\\') (hrest : rest.head? ≠ some q) :
    run (delimitedUnit q) ⟨false, q :: rest, []⟩ k = none := by
  unfold delimitedUnit
  rw [run_alt, run_chars_cons rfl, if_neg (by simp), run_alt, run_seq, run_char_cons, if_neg hq,
    run_seq, run_char_cons, if_pos rfl]
  cases rest with
  | nil => rfl
  | cons c rest =>
    rw [run_char_cons, if_neg fun hc => hrest (congrArg some hc)]
    rfl

theorem iterate_body (hq : q ≠ '\\') (hrest : rest.head? ≠ some q) (n : ℕ) (body : List Char)
    (hbody : PlainBody q body) (hn : body.length < n) :
    iterate (fun s k => run (delimitedUnit q) s k) n ⟨false, body ++ q :: rest, []⟩
      (fun s => run (char q) s some) = some ⟨false, rest, []⟩ := by
  induction n generalizing body with
  | zero => omega
  | succ n ih =>
    rw [iterate]
    -- one turn takes the unit that the body begins with
    have hturn : ∀ u body', body = u ++ body' → u ≠ [] → PlainBody q body' →
        (∀ k : Place → Option Place,
          k ⟨false, body' ++ q :: rest, []⟩ = some ⟨false, rest, []⟩ →
          run (delimitedUnit q) ⟨false, u ++ (body' ++ q :: rest), []⟩ k
            = some ⟨false, rest, []⟩) →
        run (delimitedUnit q) ⟨false, body ++ q :: rest, []⟩ (fun s' =>
          if s'.rest.length < (body ++ q :: rest).length then
            iterate (fun s k => run (delimitedUnit q) s k) n s' fun s => run (char q) s some
          else none) = some ⟨false, rest, []⟩ := by
      intro u body' hsplit hu hbody' hunit
      have hlength : u.length ≠ 0 := fun h => hu (List.length_eq_zero_iff.mp h)
      subst hsplit
      rw [List.length_append] at hn
      rw [List.append_assoc]
      apply hunit
      rw [if_pos (by simp only [List.length_append, List.length_cons]; omega)]
      exact ih body' hbody' (by omega)
    cases body with
    | nil =>
      rw [List.nil_append, run_unit_closing hq hrest, run_char_cons, if_pos rfl]
      rfl
    | cons c tail =>
      cases tail with
      | nil =>
        rw [hturn [c] [] rfl (by simp) trivial fun k hk => run_unit_plain hbody.1 hbody.2 hk]
        rfl
      | cons d body' =>
        rw [PlainBody] at hbody
        split_ifs at hbody with hc hbackslash
        · obtain ⟨rfl, hbody⟩ := hbody
          subst hc
          rw [hturn [c, c] body' rfl (by simp) hbody fun k hk => run_unit_doubled hq hk]
          rfl
        · subst hbackslash
          rw [hturn ['\\', d] body' rfl (by simp) hbody.2.2 fun k hk =>
            run_unit_escape hbody.2.1 hk]
          rfl
        · rw [hturn [c] (d :: body') rfl (by simp) hbody fun k hk =>
            run_unit_plain hc hbackslash hk]
          rfl

theorem matchAt_delimited (hq : q ≠ '\\') {body rest : List Char} (hbody : PlainBody q body)
    (hrest : rest.head? ≠ some q) (atStart : Bool) :
    (delimited q).matchAt atStart (q :: (body ++ q :: rest)) = some (delimitedMatch q body) := by
  have hrun : (delimited q).run ⟨atStart, q :: (body ++ q :: rest), []⟩ some
      = some ⟨false, rest, []⟩ := by
    unfold delimited
    rw [run_seq, run_char_cons, if_pos rfl, run_seq]
    apply iterate_body hq hrest _ body hbody
    simp only [List.length_append, List.length_cons]
    omega
  unfold matchAt
  rw [hrun]
  dsimp only
  have hlength : (q :: (body ++ q :: rest)).length - rest.length = (q :: (body ++ [q])).length := by
    simp only [List.length_cons, List.length_append, List.length_nil]
    omega
  rw [if_pos (by simp only [List.length_cons, List.length_append]; omega), hlength]
  have hsplit : q :: (body ++ q :: rest) = (q :: (body ++ [q])) ++ rest := by simp
  rw [hsplit, List.take_left]
  rfl

theorem matchAt_delimited_of_ne {c : Char} (hc : c ≠ q) (rest : List Char) (atStart : Bool) :
    (delimited q).matchAt atStart (c :: rest) = none := by
  unfold matchAt delimited
  rw [run_seq, run_char_cons, if_neg hc]

end

/-! ## All matches -/

def Piece.text : Piece → List Char
  | .char c => [c]
  | .found m => m.taken

def piecesText (ps : List Piece) : List Char := ps.flatMap Piece.text

/-- Pieces as they stand: no character is a `q`, and a delimited text ends at its last one. -/
def Fits (q : Char) : List Piece → Prop
  | [] => True
  | .char c :: ps => c ≠ q ∧ Fits q ps
  | .found m :: ps =>
    (∃ body, PlainBody q body ∧ m = delimitedMatch q body) ∧ (piecesText ps).head? ≠ some q ∧
      Fits q ps

variable {ps : List Piece}

theorem fits_append_chars {q : Char} {w : List Char} (hw : q ∉ w) (hps : Fits q ps) :
    Fits q (w.map Piece.char ++ ps) := by
  induction w with
  | nil => exact hps
  | cons c w ih =>
    rw [List.mem_cons, not_or] at hw
    exact ⟨fun hc => hw.1 hc.symm, ih hw.2⟩

@[simp] theorem piecesText_nil : piecesText [] = [] := rfl

@[simp] theorem piecesText_cons (p : Piece) (ps : List Piece) :
    piecesText (p :: ps) = p.text ++ piecesText ps := rfl

@[simp] theorem piecesText_append (ps ps' : List Piece) :
    piecesText (ps ++ ps') = piecesText ps ++ piecesText ps' := by
  unfold piecesText
  rw [List.flatMap_append]

@[simp] theorem piecesText_chars (w : List Char) : piecesText (w.map Piece.char) = w := by
  induction w with
  | nil => rfl
  | cons c w ih =>
    rw [List.map_cons, piecesText_cons, ih]
    rfl

/-- A scan finds the delimited texts as they stand. -/
theorem scan_delimited {q : Char} (hq : q ≠ '\\') (hps : Fits q ps) (n : ℕ)
    (hn : (piecesText ps).length ≤ n) (atStart : Bool) :
    (delimited q).scan n atStart (piecesText ps) = ps := by
  induction ps generalizing n atStart with
  | nil => cases n <;> rfl
  | cons p ps ih =>
    cases n with
    | zero =>
      exfalso
      cases p with
      | char c =>
        rw [piecesText_cons, List.length_append] at hn
        exact absurd hn (by simp [Piece.text])
      | found m =>
        obtain ⟨⟨body, -, rfl⟩, -⟩ := hps
        rw [piecesText_cons, List.length_append] at hn
        exact absurd hn (by simp [Piece.text, delimitedMatch])
    | succ n =>
      cases p with
      | char c =>
        rw [piecesText_cons] at hn ⊢
        show (delimited q).scan (n + 1) atStart (c :: piecesText ps) = _
        rw [scan, matchAt_delimited_of_ne hps.1, ih hps.2 n (by simpa [Piece.text] using hn)]
      | found m =>
        obtain ⟨⟨body, hbody, rfl⟩, hhead, hps⟩ := hps
        have htext : piecesText (.found (delimitedMatch q body) :: ps)
            = q :: (body ++ q :: piecesText ps) := by
          rw [piecesText_cons]
          simp [Piece.text, delimitedMatch]
        rw [htext] at hn ⊢
        rw [scan, matchAt_delimited hq hbody hhead]
        dsimp only
        have hdrop : (q :: (body ++ q :: piecesText ps)).drop (delimitedMatch q body).taken.length
            = piecesText ps := by
          have hsplit : q :: (body ++ q :: piecesText ps)
              = (delimitedMatch q body).taken ++ piecesText ps := by simp [delimitedMatch]
          rw [hsplit, List.drop_left]
        rw [hdrop, ih hps n]
        simp only [List.length_cons, List.length_append] at hn
        omega

theorem pieces_delimited {q : Char} (hq : q ≠ '\\') (hps : Fits q ps) :
    (delimited q).pieces (String.ofList (piecesText ps)) = ps := by
  unfold pieces
  rw [String.toList_ofList]
  exact scan_delimited hq hps _ le_rfl true

example : ((delimited '\'').pieces "a'b''c'd").length = 3 := by decide +kernel

end Regex

end OmnibaseCore
