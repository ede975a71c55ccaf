import OmnibaseCore.Regex.Language

/-!
# Searching and substituting

`pattern.search`, `findall` and `sub`, for patterns that take at least one character. A text is
cut into pieces from left to right: where the pattern matches, the match is a piece, and
elsewhere the next character is one. What is found is a match somewhere in the text
(`exists_of_found_mem_pieces`), and where a text of the pattern stands, a search does not fail
(`search_of_mem_language`).
-/

namespace OmnibaseCore

namespace Regex

/-- The text that a match takes, and what the groups have matched, the latest first. -/
structure Match where
  taken : List Char
  groups : List (String × String)

/-- `match.group(name)`. -/
def Match.group (m : Match) (name : String) : Option String := m.groups.lookup name

def matchAt (r : Regex) (atStart : Bool) (rest : List Char) : Option Match :=
  match r.run { atStart := atStart, rest := rest, groups := [] } some with
  | none => none
  | some s =>
    if s.rest.length < rest.length then
      some { taken := rest.take (rest.length - s.rest.length), groups := s.groups }
    else none

inductive Piece
  | char (c : Char)
  | found (m : Match)

/-- The pieces of a text of at most `n` characters. -/
def scan (r : Regex) : ℕ → Bool → List Char → List Piece
  | 0, _, _ => []
  | _ + 1, _, [] => []
  | n + 1, atStart, c :: rest =>
    match r.matchAt atStart (c :: rest) with
    | some m => .found m :: scan r n false ((c :: rest).drop m.taken.length)
    | none => .char c :: scan r n false rest

def pieces (r : Regex) (s : String) : List Piece := r.scan s.toList.length true s.toList

/-- `pattern.findall(text)`, for a pattern with one group. -/
def findall (r : Regex) (name : String) (s : String) : List String :=
  (r.pieces s).filterMap fun piece =>
    match piece with
    | .char _ => none
    | .found m => m.group name

/-- `pattern.sub(f, text)`, for a function that may raise. -/
def sub {ε : Type} (r : Regex) (f : Match → Except ε String) (s : String) : Except ε String := do
  let parts ← (r.pieces s).mapM fun piece =>
    match piece with
    | .char c => .ok (String.singleton c)
    | .found m => f m
  return String.join parts

/-- Whether the pattern matches somewhere. -/
def searchFrom (r : Regex) : Bool → List Char → Bool
  | _, [] => false
  | atStart, c :: rest => (r.matchAt atStart (c :: rest)).isSome || searchFrom r false rest

/-- `bool(pattern.search(text))`. -/
def search (r : Regex) (s : String) : Bool := r.searchFrom true s.toList

/-! ## What is found -/

theorem matchAt_nil (r : Regex) (atStart : Bool) : r.matchAt atStart [] = none := by
  unfold matchAt
  cases r.run { atStart := atStart, rest := [], groups := [] } some with
  | none => rfl
  | some s => exact if_neg (Nat.not_lt_zero _)

variable {r : Regex}

theorem exists_of_found_mem_scan {m : Match} {n : ℕ} {atStart : Bool} {s : List Char}
    (h : .found m ∈ r.scan n atStart s) :
    ∃ before rest b, s = before ++ rest ∧ r.matchAt b rest = some m := by
  induction n generalizing atStart s with
  | zero => exact nomatch h
  | succ n ih =>
    cases s with
    | nil => exact nomatch h
    | cons c s =>
      rw [scan] at h
      cases hm : r.matchAt atStart (c :: s) with
      | some m' =>
        rw [hm] at h
        rcases List.mem_cons.mp h with h | h
        · cases h
          exact ⟨[], c :: s, atStart, rfl, hm⟩
        · rcases ih h with ⟨before, rest, b, hrest, hfound⟩
          refine ⟨(c :: s).take m'.taken.length ++ before, rest, b, ?_, hfound⟩
          rw [List.append_assoc, ← hrest, List.take_append_drop]
      | none =>
        rw [hm] at h
        rcases List.mem_cons.mp h with h | h
        · cases h
        · rcases ih h with ⟨before, rest, b, hrest, hfound⟩
          exact ⟨c :: before, rest, b, congrArg (c :: ·) hrest, hfound⟩

variable {s : String}

/-- A match that is a piece of a text is a match somewhere in it. -/
theorem exists_of_found_mem_pieces {m : Match} (h : .found m ∈ r.pieces s) :
    ∃ before rest b, s.toList = before ++ rest ∧ r.matchAt b rest = some m :=
  exists_of_found_mem_scan h

theorem exists_found_mem_pieces {before rest : List Char} (hs : s.toList = before ++ rest)
    (hsome : ∀ b, (r.matchAt b rest).isSome = true) : ∃ m, .found m ∈ r.pieces s := by
  have hscan : ∀ (n : ℕ) (before : List Char) (atStart : Bool), (before ++ rest).length ≤ n →
      ∃ m, .found m ∈ r.scan n atStart (before ++ rest) := by
    intro n
    induction n with
    | zero =>
      intro before atStart hn
      have hrest : rest = [] := (List.append_eq_nil_iff.mp (List.eq_nil_of_length_eq_zero
        (Nat.le_zero.mp hn))).2
      have hmatch := hsome true
      rw [hrest, matchAt_nil] at hmatch
      exact nomatch hmatch
    | succ n ih =>
      intro before atStart hn
      cases hpiece : before ++ rest with
      | nil =>
        have hmatch := hsome true
        rw [(List.append_eq_nil_iff.mp hpiece).2, matchAt_nil] at hmatch
        exact nomatch hmatch
      | cons c l =>
        rw [scan]
        cases hm : r.matchAt atStart (c :: l) with
        | some m => exact ⟨m, List.mem_cons_self⟩
        | none =>
          cases before with
          | nil =>
            rw [List.nil_append] at hpiece
            rw [← hpiece] at hm
            have hmatch := hsome atStart
            rw [hm] at hmatch
            exact nomatch hmatch
          | cons d before =>
            obtain ⟨-, rfl⟩ := List.cons.inj hpiece
            rw [List.cons_append, List.length_cons] at hn
            obtain ⟨m, hmem⟩ := ih before false (by omega)
            exact ⟨m, List.mem_cons_of_mem _ hmem⟩
  have hpieces := hscan (before ++ rest).length before true le_rfl
  rwa [← hs] at hpieces

theorem isSome_matchAt (hr : r.Plain) (hnil : [] ∉ r.language) {w rest : List Char}
    (hw : w ∈ r.language) (hstarts : w <+: rest) (atStart : Bool) :
    (r.matchAt atStart rest).isSome = true := by
  have hrun : (r.run { atStart := atStart, rest := rest, groups := [] } some).isSome = true :=
    isSome_run hr hw hstarts rfl
  rcases Option.isSome_iff_exists.mp hrun with ⟨s, hs⟩
  rcases exists_of_run hr hs with ⟨u, hu, huprefix, hplace⟩
  have hpos : 0 < u.length := List.length_pos_iff.mpr fun hnilu => hnil (hnilu ▸ hu)
  have hless : s.rest.length < rest.length := by
    rw [← Option.some.inj hplace, Place.rest_advance, List.length_drop]
    have hlength := huprefix.length_le
    dsimp only at hlength ⊢
    omega
  unfold matchAt
  rw [hs]
  dsimp only
  rw [if_pos hless]
  rfl

/-- Where a text of the pattern stands, a search finds something. -/
theorem search_of_mem_language (hr : r.Plain) (hnil : [] ∉ r.language) {w before rest : List Char}
    (hw : w ∈ r.language) (hs : s.toList = before ++ (w ++ rest)) : r.search s = true := by
  have hsearch : ∀ (before : List Char) (atStart : Bool),
      r.searchFrom atStart (before ++ (w ++ rest)) = true := by
    intro before
    induction before with
    | nil =>
      intro atStart
      have hsome := isSome_matchAt hr hnil hw (List.prefix_append w rest) atStart
      cases hpiece : w ++ rest with
      | nil => exact absurd ((List.append_eq_nil_iff.mp hpiece).1 ▸ hw) hnil
      | cons c l =>
        rw [hpiece] at hsome
        rw [List.nil_append, searchFrom, hsome, Bool.true_or]
    | cons c before ih =>
      intro atStart
      rw [List.cons_append, searchFrom, ih false, Bool.or_true]
  unfold search
  rw [hs]
  exact hsearch before true

/-! ## Fixed texts -/

theorem plain_text (s : String) : (text s).Plain := by
  unfold text
  induction s.toList with
  | nil => trivial
  | cons c l ih => exact ⟨trivial, ih⟩

theorem mem_language_text {w : List Char} : w ∈ (text s).language ↔ w = s.toList := by
  unfold text
  induction s.toList generalizing w with
  | nil => exact Iff.rfl
  | cons c l ih =>
    rw [List.foldr_cons, mem_language_seq]
    constructor
    · rintro ⟨u, hu, v, hv, rfl⟩
      rw [mem_language_char.mp hu, ih.mp hv]
      rfl
    · rintro rfl
      exact ⟨[c], mem_language_char.mpr rfl, l, ih.mpr rfl, rfl⟩

/-! ## Substitution -/

theorem sub_congr {ε : Type} {f g : Match → Except ε String}
    (h : ∀ m, .found m ∈ r.pieces s → f m = g m) : r.sub f s = r.sub g s := by
  unfold sub
  have hmap : ∀ l : List Piece, (∀ m, .found m ∈ l → f m = g m) →
      (l.mapM fun piece => match piece with
        | .char c => .ok (String.singleton c)
        | .found m => f m) =
      (l.mapM fun piece => match piece with
        | .char c => .ok (String.singleton c)
        | .found m => g m : Except ε (List String)) := by
    intro l hl
    induction l with
    | nil => rfl
    | cons piece l ih =>
      rw [List.mapM_cons, List.mapM_cons,
        ih fun m hm => hl m (List.mem_cons_of_mem piece hm)]
      cases piece with
      | char c => rfl
      | found m =>
        dsimp only
        rw [hl m List.mem_cons_self]
  rw [hmap _ h]

example : (text "ab").search "xabab" = true := by decide +kernel

end Regex

end OmnibaseCore
