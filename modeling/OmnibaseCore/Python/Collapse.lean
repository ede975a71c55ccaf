import OmnibaseCore.Python.Text

/-!
# Whitespace collapsed

`" ".join(s.split())` reads a text from left to right and remembers only where it stands: before
the first word, in a word, or behind one (`joinWords_eq`). What it makes of a text in front of a
character that is no whitespace does not depend on what comes after (`collapse_append_cons`).
-/

namespace OmnibaseCore

/-- Where a text stands while its whitespace is collapsed. -/
inductive Gap
  /-- Before the first word -/
  | lead
  | inside
  /-- Behind a word, so that the next one comes with a blank in front -/
  | owed

/-- Behind one more whitespace character. -/
def Gap.skip : Gap → Gap
  | .lead => .lead
  | .inside => .owed
  | .owed => .owed

/-- What comes in front of the next word. -/
def Gap.pending : Gap → List Char
  | .owed => [' ']
  | _ => []

def collapse : Gap → List Char → List Char
  | _, [] => []
  | g, c :: rest =>
    if isSpace c then collapse g.skip rest else g.pending ++ c :: collapse .inside rest

/-- The same in front of a character that is no whitespace. -/
def collapseOpen : Gap → List Char → List Char
  | g, [] => g.pending
  | g, c :: rest =>
    if isSpace c then collapseOpen g.skip rest else g.pending ++ c :: collapseOpen .inside rest

/-- `s.rstrip()`. -/
def rstrip (s : String) : String := String.ofList (s.toList.reverse.dropWhile isSpace).reverse

/-- `" ".join(s.split())`. -/
def joinWords (s : String) : String := " ".intercalate (words s)

section
variable {g : Gap} {c : Char} {u v : List Char}

theorem collapse_append_cons (hc : isSpace c = false) :
    collapse g (u ++ c :: v) = collapseOpen g u ++ c :: collapse .inside v := by
  induction u generalizing g with
  | nil =>
    show collapse g (c :: v) = g.pending ++ c :: collapse .inside v
    rw [collapse, hc, if_neg Bool.false_ne_true]
  | cons d u ih =>
    rw [List.cons_append, collapse, collapseOpen]
    by_cases hd : isSpace d = true
    · rw [if_pos hd, if_pos hd, ih]
    · rw [if_neg hd, if_neg hd, ih, List.append_assoc, List.cons_append]

theorem collapse_owed (l : List Char) :
    collapse .owed l = if collapse .lead l = [] then [] else ' ' :: collapse .lead l := by
  induction l with
  | nil => rfl
  | cons c l ih =>
    rw [collapse, collapse]
    by_cases hc : isSpace c = true
    · rw [if_pos hc, if_pos hc]
      exact ih
    · rw [if_neg hc, if_neg hc, if_neg (by simp [Gap.pending])]
      rfl

end

/-- The words of a text, with a blank between them. -/
def joinPieces (l : List (List Char)) : List Char := [' '].intercalate (l.filter fun w => w ≠ [])

theorem joinPieces_cons {w : List Char} (hw : w ≠ []) (l : List (List Char)) :
    joinPieces (w :: l) = w ++ if joinPieces l = [] then [] else ' ' :: joinPieces l := by
  unfold joinPieces
  rw [List.filter_cons, if_pos (by simpa using hw)]
  cases hl : l.filter fun w => w ≠ [] with
  | nil => simp
  | cons w' l' =>
    have hw' : w' ≠ [] := by
      have hmem : w' ∈ l.filter fun w => w ≠ [] := by rw [hl]; exact List.mem_cons_self
      simpa using (List.mem_filter.mp hmem).2
    have hne : [' '].intercalate (w' :: l') ≠ [] := by
      cases l' with
      | nil => rwa [List.intercalate_singleton]
      | cons w'' l'' => simp [List.intercalate_cons_cons, hw']
    rw [if_neg hne, List.intercalate_cons_cons, List.append_assoc, List.singleton_append]

theorem joinPieces_pieces (piece l : List Char) :
    joinPieces (pieces isSpace piece l)
      = if piece = [] then collapse .lead l else piece ++ collapse .inside l := by
  induction l generalizing piece with
  | nil =>
    rw [pieces]
    by_cases hpiece : piece = []
    · rw [if_pos hpiece, hpiece]
      rfl
    · rw [if_neg hpiece, joinPieces_cons hpiece]
      rfl
  | cons c l ih =>
    have hlead : joinPieces (pieces isSpace [] l) = collapse .lead l := by rw [ih, if_pos rfl]
    rw [pieces, collapse, collapse]
    by_cases hc : isSpace c = true
    · rw [if_pos hc, if_pos hc, if_pos hc]
      by_cases hpiece : piece = []
      · rw [if_pos hpiece, hpiece]
        exact hlead
      · rw [if_neg hpiece, joinPieces_cons hpiece, hlead]
        exact congrArg (piece ++ ·) (collapse_owed l).symm
    · rw [if_neg hc, if_neg hc, if_neg hc, ih, if_neg (by simp), List.append_assoc]
      by_cases hpiece : piece = []
      · rw [if_pos hpiece, hpiece]
        rfl
      · rw [if_neg hpiece]
        rfl

theorem joinWords_eq (s : String) :
    joinWords s = String.ofList (collapse .lead s.toList) := by
  have hlist : (joinWords s).toList = collapse .lead s.toList := by
    unfold joinWords words
    rw [String.toList_intercalate, List.map_map]
    have hid : String.toList ∘ String.ofList = id := by
      ext1 w
      exact String.toList_ofList
    rw [hid, List.map_id]
    have h := joinPieces_pieces [] s.toList
    rwa [if_pos rfl] at h
  rw [← hlist, String.ofList_toList]

/-! ## The ends -/

theorem head?_collapse_owed (l : List Char) : ∀ c ∈ (collapse .owed l).head?, c = ' ' := by
  intro c hc
  rw [collapse_owed] at hc
  split_ifs at hc with hnil
  · exact nomatch hc
  · exact (Option.some.inj hc).symm

theorem head?_of_collapse_inside {l : List Char} {c : Char} (hc : isSpace c = false)
    (h : (collapse .inside l).head? = some c) : l.head? = some c := by
  cases l with
  | nil => exact nomatch h
  | cons d l =>
    rw [collapse] at h
    by_cases hd : isSpace d = true
    · rw [if_pos hd] at h
      rw [head?_collapse_owed l c h] at hc
      exact absurd hc (by decide)
    · rw [if_neg hd] at h
      exact h

theorem getLast?_collapse (g : Gap) (l : List Char) :
    ∀ c ∈ (collapse g l).getLast?, isSpace c = false := by
  induction l generalizing g with
  | nil => exact fun c hc => nomatch hc
  | cons d l ih =>
    intro c hc
    rw [collapse] at hc
    by_cases hd : isSpace d = true
    · rw [if_pos hd] at hc
      exact ih _ c hc
    · rw [if_neg hd, List.getLast?_append, List.getLast?_cons] at hc
      cases hlast : (collapse .inside l).getLast? with
      | none =>
        rw [hlast] at hc
        have hdc : d = c := by simpa using hc
        exact hdc ▸ Bool.not_eq_true _ ▸ hd
      | some e =>
        rw [hlast] at hc
        have hec : e = c := by simpa using hc
        exact ih .inside c (hec ▸ hlast)

theorem head?_collapse_lead (l : List Char) :
    ∀ c ∈ (collapse .lead l).head?, isSpace c = false := by
  induction l with
  | nil => exact fun c hc => nomatch hc
  | cons d l ih =>
    intro c hc
    rw [collapse] at hc
    by_cases hd : isSpace d = true
    · rw [if_pos hd] at hc
      exact ih c hc
    · rw [if_neg hd] at hc
      have hdc : d = c := Option.some.inj hc
      exact hdc ▸ Bool.not_eq_true _ ▸ hd

theorem strip_joinWords (s : String) : strip (joinWords s) = joinWords s := by
  have hdrop : ∀ l : List Char, (∀ c ∈ l.head?, isSpace c = false) → l.dropWhile isSpace = l := by
    intro l hl
    cases l with
    | nil => rfl
    | cons c l => rw [List.dropWhile_cons_of_neg (by simp [hl c rfl])]
  rw [joinWords_eq]
  unfold strip
  rw [String.toList_ofList, hdrop _ (head?_collapse_lead _), hdrop, List.reverse_reverse]
  rw [List.head?_reverse]
  exact getLast?_collapse .lead s.toList

end OmnibaseCore
