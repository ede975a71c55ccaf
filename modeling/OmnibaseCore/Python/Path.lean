import OmnibaseCore.Python.Affix
import OmnibaseCore.Python.Text

/-!
# Paths and shell patterns

`PurePosixPath.name` and `stem`, and `/`. `fnmatch`, with the case of letters kept: `*` for any
text, `?` for any character, and sets of characters in brackets.
-/

namespace OmnibaseCore

def pathParts (path : String) : List String :=
  (splitAt '/' path).filter fun part => part ≠ "" ∧ part ≠ "."

/-- `Path(path).name`. -/
def pathName (path : String) : String := (pathParts path).getLastD ""

/-- A file name up to its last dot, if the dot neither begins nor ends the name. -/
def stemOf (name : String) : String :=
  let chars := name.toList
  let extension := (chars.reverse.takeWhile fun c => c ≠ '.').length
  -- the place of the dot, if there is one
  let i := chars.length - extension - 1
  if extension < chars.length ∧ 0 < i ∧ i < chars.length - 1 then String.ofList (chars.take i)
  else name

/-- `Path(path).stem`. -/
def pathStem (path : String) : String := stemOf (pathName path)

/-- `str(Path(path))`. -/
def pathText (path : String) : String :=
  let text := "/".intercalate (pathParts path)
  if startsWith "/" path then "/" ++ text else if text = "" then "." else text

/-- `str(Path(path) / other)`. -/
def joinPath (path other : String) : String :=
  pathText (if startsWith "/" other then other else path ++ "/" ++ other)

example : pathStem "a/b.c.d" = "b.c" := by decide

/-! ### Files of a directory -/

def IsFileName (name : String) : Prop := name ≠ "" ∧ name ≠ "." ∧ '/' ∉ name.toList

theorem splitAt_append_part {c : Char} {s part : String} (hpart : c ∉ part.toList) :
    splitAt c (s ++ String.ofList [c] ++ part) = splitAt c s ++ [part] := by
  have hpieces : ∀ piece l : List Char, pieces (fun d => d = c) piece (l ++ c :: part.toList)
      = pieces (fun d => d = c) piece l ++ [part.toList] := by
    intro piece l
    induction l generalizing piece with
    | nil =>
      have hnone : ∀ d ∈ part.toList, decide (d = c) = false := by
        intro d hd
        exact decide_eq_false fun heq => hpart (heq ▸ hd)
      show pieces (fun d => decide (d = c)) piece (c :: part.toList) = _
      simp only [pieces, decide_true, if_true, pieces_of_forall_not [] hnone, List.nil_append,
        List.singleton_append]
    | cons d l ih =>
      rw [List.cons_append, pieces, pieces]
      split_ifs
      · rw [ih, List.cons_append]
      · exact ih _
  unfold splitAt
  rw [String.toList_append, String.toList_append, String.toList_ofList, List.append_assoc,
    List.singleton_append, hpieces, List.map_append, List.map_singleton, String.ofList_toList]

theorem pathParts_pathText {path : String} (h : pathParts path ≠ []) :
    pathParts (pathText path) = pathParts path := by
  have hparts : ∀ part ∈ pathParts path, '/' ∉ part.toList ∧ part ≠ "" ∧ part ≠ "." := by
    intro part hpart
    obtain ⟨hmem, hplain⟩ := List.mem_filter.mp hpart
    obtain ⟨w, hw, rfl⟩ := List.mem_map.mp hmem
    refine ⟨fun hslash => ?_, of_decide_eq_true hplain⟩
    rw [String.toList_ofList] at hslash
    exact absurd (not_sep_of_mem_pieces (by simp) w hw '/' hslash) (by simp)
  have hsplit : splitAt '/' ("/".intercalate (pathParts path)) = pathParts path :=
    splitAt_intercalate h fun part hpart => (hparts part hpart).1
  have hkept : (pathParts path).filter (fun part => part ≠ "" ∧ part ≠ ".") = pathParts path :=
    List.filter_eq_self.mpr fun part hpart => decide_eq_true (hparts part hpart).2
  unfold pathText
  dsimp only
  split_ifs with hroot hempty
  · -- a root adds an empty part in front
    show (splitAt '/' ("/" ++ "/".intercalate (pathParts path))).filter _ = _
    have hslash : splitAt '/' ("/" ++ "/".intercalate (pathParts path))
        = "" :: splitAt '/' ("/".intercalate (pathParts path)) := by
      unfold splitAt
      rw [String.toList_append]
      rfl
    rw [hslash, hsplit, List.filter_cons_of_neg (by decide), hkept]
  · rw [hempty] at hsplit
    have hfirst : ("" : String) ∈ pathParts path := by
      rw [← hsplit]
      decide
    exact absurd rfl (hparts "" hfirst).2.1
  · show (splitAt '/' ("/".intercalate (pathParts path))).filter _ = _
    rw [hsplit, hkept]

theorem pathName_joinPath (dir : String) {name : String} (h : IsFileName name) :
    pathName (joinPath dir name) = name := by
  have hroot : ¬ startsWith "/" name = true := by
    intro hstarts
    obtain ⟨rest, hrest⟩ := List.isPrefixOf_iff_prefix.mp hstarts
    exact h.2.2 (hrest ▸ List.mem_cons_self)
  have hparts : pathParts (dir ++ "/" ++ name) = pathParts dir ++ [name] := by
    have hname : decide (name ≠ "" ∧ name ≠ ".") = true := decide_eq_true ⟨h.1, h.2.1⟩
    unfold pathParts
    rw [show "/" = String.ofList ['/'] from rfl, splitAt_append_part h.2.2, List.filter_append,
      List.filter_cons, if_pos hname, List.filter_nil]
  unfold pathName joinPath
  rw [if_neg hroot, pathParts_pathText (by rw [hparts]; simp), hparts, List.getLastD_eq_getLast?,
    List.getLast?_concat, Option.getD_some]

/-! ## Shell patterns -/

/-- An item of a pattern. -/
inductive Glob
  | star
  | one (p : Char → Bool)

/-- The characters of a set, ranges among them. A range that runs backwards is empty. -/
def Glob.inSet : List Char → Char → Bool
  | [], _ => false
  | [a], c => c = a
  | [a, b], c => c = a || c = b
  | a :: b :: d :: rest, c =>
    if b = '-' then (a ≤ c && c ≤ d) || inSet rest c
    else c = a || inSet (b :: d :: rest) c

/-- A set whose opening bracket was read, and what follows it. Its first character does not
close it. -/
def Glob.set (pattern : List Char) : Option ((Char → Bool) × List Char) :=
  let negated := pattern.head? = some '!'
  match if negated then pattern.tail else pattern with
  | [] => none
  | first :: rest =>
    match rest.dropWhile fun c => c ≠ ']' with
    | [] => none
    | _ :: after =>
      let items := first :: rest.takeWhile fun c => c ≠ ']'
      some (fun c => negated ^^ inSet items c, after)

/-- The items of a pattern, read in at most `n` steps. A bracket that is not closed stands for
itself. -/
def Glob.translate : ℕ → List Char → List Glob
  | 0, _ => []
  | _, [] => []
  | n + 1, '*' :: rest => .star :: translate n rest
  | n + 1, '?' :: rest => .one (fun _ => true) :: translate n rest
  | n + 1, '[' :: rest =>
    match set rest with
    | some (p, after) => .one p :: translate n after
    | none => .one (fun c => c = '[') :: translate n rest
  | n + 1, a :: rest => .one (fun c => c = a) :: translate n rest

def Glob.matchAll : List Glob → List Char → Bool
  | [], text => text.isEmpty
  | .star :: items, text => text.tails.any (matchAll items)
  | .one _ :: _, [] => false
  | .one p :: items, c :: rest => p c && matchAll items rest

/-- `fnmatch.fnmatch`. -/
def fnmatch (text pattern : String) : Bool :=
  Glob.matchAll (Glob.translate pattern.length pattern.toList) text.toList

example : fnmatch "database.relational" "database.*" = true ∧
    fnmatch "cache.a-3" "*.[a-c]?[!0-2]" = true ∧ fnmatch "cache.kv" "database.*" = false := by
  decide

/-! ### What a pattern matches -/

/-- Items that match one text. -/
def Glob.literal (w : List Char) : List Glob := w.map fun a => .one fun c => c = a

/-- A character that stands for itself in a pattern. -/
def Glob.Plain (c : Char) : Prop := c ≠ '*' ∧ c ≠ '?' ∧ c ≠ '['

instance (c : Char) : Decidable (Glob.Plain c) := inferInstanceAs (Decidable (_ ∧ _ ∧ _))

theorem Glob.matchAll_star {items : List Glob} {text : List Char} :
    matchAll (.star :: items) text = true ↔ ∃ t u, text = t ++ u ∧ matchAll items u = true := by
  rw [matchAll, List.any_eq_true]
  constructor
  · rintro ⟨u, hu, hmatch⟩
    obtain ⟨t, rfl⟩ := (List.mem_tails u text).mp hu
    exact ⟨t, u, rfl, hmatch⟩
  · rintro ⟨t, u, rfl, hmatch⟩
    exact ⟨u, (List.mem_tails u _).mpr ⟨t, rfl⟩, hmatch⟩

/-- Items one after the other match texts one after the other. -/
theorem Glob.matchAll_append {items items' : List Glob} {text : List Char} :
    matchAll (items ++ items') text = true ↔
      ∃ t u, text = t ++ u ∧ matchAll items t = true ∧ matchAll items' u = true := by
  induction items generalizing text with
  | nil =>
    constructor
    · exact fun h => ⟨[], text, rfl, rfl, h⟩
    · rintro ⟨t, u, rfl, ht, hu⟩
      rw [List.isEmpty_iff.mp ht]
      exact hu
  | cons item items ih =>
    cases item with
    | star =>
      rw [List.cons_append, matchAll_star]
      constructor
      · rintro ⟨t, u, rfl, hmatch⟩
        obtain ⟨v, w, rfl, hv, hw⟩ := ih.mp hmatch
        exact ⟨t ++ v, w, (List.append_assoc t v w).symm, matchAll_star.mpr ⟨t, v, rfl, hv⟩, hw⟩
      · rintro ⟨t, u, rfl, ht, hu⟩
        obtain ⟨v, w, rfl, hw⟩ := matchAll_star.mp ht
        exact ⟨v, w ++ u, List.append_assoc v w u, ih.mpr ⟨w, u, rfl, hw, hu⟩⟩
    | one p =>
      cases text with
      | nil =>
        refine iff_of_false (fun h => nomatch h) ?_
        rintro ⟨t, u, htext, ht, -⟩
        rw [(List.append_eq_nil_iff.mp htext.symm).1] at ht
        exact nomatch ht
      | cons c text =>
        rw [List.cons_append, matchAll, Bool.and_eq_true, ih]
        constructor
        · rintro ⟨hc, t, u, rfl, ht, hu⟩
          exact ⟨c :: t, u, rfl, by rw [matchAll, hc, ht]; rfl, hu⟩
        · rintro ⟨t, u, htext, ht, hu⟩
          cases t with
          | nil => exact nomatch ht
          | cons d t =>
            obtain ⟨rfl, rfl⟩ := List.cons.inj htext
            rw [matchAll, Bool.and_eq_true] at ht
            exact ⟨ht.1, t, u, rfl, ht.2, hu⟩

theorem Glob.matchAll_literal {w text : List Char} :
    matchAll (literal w) text = true ↔ text = w := by
  induction w generalizing text with
  | nil => exact List.isEmpty_iff
  | cons a w ih =>
    cases text with
    | nil => exact iff_of_false (fun h => nomatch h) (fun h => nomatch h)
    | cons c text =>
      show (decide (c = a) && matchAll (literal w) text) = true ↔ _
      rw [Bool.and_eq_true, decide_eq_true_eq, ih, List.cons.injEq]

theorem Glob.translate_cons_plain {c : Char} (hc : Plain c) (n : ℕ) (rest : List Char) :
    translate (n + 1) (c :: rest) = .one (fun d => d = c) :: translate n rest := by
  rw [translate]
  · exact fun h => hc.1 h
  · exact fun h => hc.2.1 h
  · exact fun h => hc.2.2 h

theorem Glob.translate_plain_append {w : List Char} (hw : ∀ c ∈ w, Plain c) (n : ℕ)
    (v : List Char) : translate (w.length + n) (w ++ v) = literal w ++ translate n v := by
  induction w with
  | nil => simp [literal]
  | cons c w ih =>
    rw [List.forall_mem_cons] at hw
    rw [List.length_cons, Nat.add_right_comm, List.cons_append, translate_cons_plain hw.1,
      ih hw.2]
    rfl

theorem Glob.set_spec {pattern after : List Char} {p : Char → Bool}
    (h : set pattern = some (p, after)) : ∃ w, pattern = w ++ ']' :: after := by
  unfold set at h
  dsimp only at h
  have hbody : ∀ body : List Char, (match body with
      | [] => none
      | first :: rest =>
        match rest.dropWhile fun c => c ≠ ']' with
        | [] => none
        | _ :: after => some ((fun c => (decide (pattern.head? = some '!')) ^^ inSet
            (first :: rest.takeWhile fun c => c ≠ ']') c), after)) = some (p, after) →
      ∃ w, body = w ++ ']' :: after := by
    intro body hbody
    cases body with
    | nil => exact nomatch hbody
    | cons first rest =>
      dsimp only at hbody
      cases hdrop : rest.dropWhile fun c => c ≠ ']' with
      | nil =>
        rw [hdrop] at hbody
        exact nomatch hbody
      | cons c after' =>
        rw [hdrop] at hbody
        have hafter : after' = after := congrArg Prod.snd (Option.some.inj hbody)
        have hc : c = ']' := by
          have hhead := List.head?_dropWhile_not (fun c => decide (c ≠ ']')) rest
          rw [hdrop] at hhead
          simpa using hhead
        have hrest : rest.takeWhile (fun c => c ≠ ']') ++ ']' :: after = rest := by
          have hwhole := List.takeWhile_append_dropWhile (p := fun c => decide (c ≠ ']')) (l := rest)
          rw [hdrop, hc, hafter] at hwhole
          exact hwhole
        exact ⟨first :: rest.takeWhile fun c => c ≠ ']', (congrArg (first :: ·) hrest).symm⟩
  by_cases hnegated : pattern.head? = some '!'
  · rw [if_pos hnegated] at h
    obtain ⟨w, hw⟩ := hbody _ h
    cases pattern with
    | nil => exact nomatch hnegated
    | cons c pattern => exact ⟨c :: w, congrArg (c :: ·) hw⟩
  · rw [if_neg hnegated] at h
    exact hbody _ h

theorem Glob.translate_append {v : List Char} (hv : ']' ∉ v) {n : ℕ} {u : List Char}
    (hn : (u ++ v).length ≤ n) :
    ∃ items m, v.length ≤ m ∧ translate n (u ++ v) = items ++ translate m v := by
  induction n generalizing u with
  | zero => exact ⟨[], 0, by rw [List.length_append] at hn; omega, by
      rw [List.eq_nil_of_length_eq_zero (Nat.le_zero.mp hn), translate, List.nil_append, translate]⟩
  | succ n ih =>
    cases u with
    | nil => exact ⟨[], n + 1, hn, rfl⟩
    | cons c u =>
      have hu : (u ++ v).length ≤ n := by
        rw [List.cons_append, List.length_cons] at hn
        omega
      obtain ⟨items, m, hm, hitems⟩ := ih hu
      rw [List.cons_append]
      by_cases hstar : c = '*'
      · rw [hstar, translate, hitems]
        exact ⟨_ :: items, m, hm, rfl⟩
      by_cases hone : c = '?'
      · rw [hone, translate, hitems]
        exact ⟨_ :: items, m, hm, rfl⟩
      by_cases hset : c = '['
      · rw [hset, translate]
        cases hsome : set (u ++ v) with
        | none =>
          dsimp only
          rw [hitems]
          exact ⟨_ :: items, m, hm, rfl⟩
        | some found =>
          obtain ⟨p, after⟩ := found
          obtain ⟨w, hw⟩ := set_spec hsome
          dsimp only
          -- the closing bracket lies in `u`
          rcases List.append_eq_append_iff.mp hw with ⟨x, hx, hv'⟩ | ⟨x, hx, hafter⟩
          · exact absurd (hv' ▸ List.mem_append_right x List.mem_cons_self) hv
          · cases x with
            | nil =>
              have hv' : ']' :: after = v := hafter
              exact absurd (hv' ▸ List.mem_cons_self) hv
            | cons d x =>
              obtain ⟨-, rfl⟩ := List.cons.inj hafter
              have hx' : (x ++ v).length ≤ n := by
                rw [hx] at hu
                simp only [List.length_append, List.length_cons] at hu ⊢
                omega
              obtain ⟨items', m', hm', hitems'⟩ := ih hx'
              exact ⟨_ :: items', m', hm', congrArg (_ :: ·) hitems'⟩
      · rw [translate_cons_plain ⟨hstar, hone, hset⟩, hitems]
        exact ⟨_ :: items, m, hm, rfl⟩

end OmnibaseCore
