import OmnibaseCore.Regex.Flags

/-!
# Patterns with a look around

A pattern that also looks at the character in front of it and at the one behind it, as `\b`,
`(?<!…)`, `(?!…)`, and `^` and `$` with `re.MULTILINE` do.
-/

namespace OmnibaseCore

namespace Regex

/-- A pattern between two looks. There is no character in front of a text and none behind it. -/
structure Guarded where
  before : Option Char → Bool
  pattern : Regex
  after : Option Char → Bool

def Guarded.matchAt (g : Guarded) (previous : Option Char) (rest : List Char) : Option Match :=
  if g.before previous then
    match g.pattern.run { atStart := previous.isNone, rest := rest, groups := [] } fun s =>
      if g.after s.rest.head? then some s else none with
    | none => none
    | some s =>
      if s.rest.length < rest.length then
        some { taken := rest.take (rest.length - s.rest.length), groups := s.groups }
      else none
  else none

/-- The matches from left to right, of which the last one still takes `skip` characters. -/
def Guarded.matchesFrom (g : Guarded) (previous : Option Char) (skip : ℕ) :
    List Char → List Match
  | [] => []
  | c :: rest =>
    if 0 < skip then g.matchesFrom (some c) (skip - 1) rest
    else
      match g.matchAt previous (c :: rest) with
      | some m => m :: g.matchesFrom (some c) (m.taken.length - 1) rest
      | none => g.matchesFrom (some c) 0 rest

/-- `pattern.finditer(text)`. -/
def Guarded.finditer (g : Guarded) (s : String) : List Match := g.matchesFrom none 0 s.toList

/-- `pattern.findall(text)`, for a pattern with one group. -/
def Guarded.findall (g : Guarded) (name : String) (s : String) : List String :=
  (g.finditer s).map fun m => (m.group name).getD ""

/-- `pattern.search(text)`. -/
def Guarded.search (g : Guarded) (s : String) : Option Match := (g.finditer s).head?

theorem Guarded.matchAt_nil (g : Guarded) (previous : Option Char) : g.matchAt previous [] = none := by
  unfold matchAt
  split_ifs
  · split
    · rfl
    · exact if_neg (by simp)
  · rfl

/-- A guarded word is found wherever it stands. -/
theorem Guarded.search_isSome {g : Guarded} {before rest : List Char} {s : String}
    (hs : s.toList = before ++ rest) (h : (g.matchAt before.getLast? rest).isSome = true) :
    (g.search s).isSome = true := by
  have hrest : rest ≠ [] := by
    intro hnil
    rw [hnil, matchAt_nil] at h
    exact nomatch h
  -- behind what the matches before it take, or before them all
  have hmatches : ∀ (before : List Char) (previous : Option Char),
      (g.matchAt (before.getLast?.or previous) rest).isSome = true →
        g.matchesFrom previous 0 (before ++ rest) ≠ [] := by
    intro before
    induction before with
    | nil =>
      intro previous hsome
      rcases List.exists_cons_of_ne_nil hrest with ⟨c, rest', hcons⟩
      rcases Option.isSome_iff_exists.mp hsome with ⟨m, hm⟩
      rw [List.getLast?_nil, Option.none_or, hcons] at hm
      rw [List.nil_append, hcons, matchesFrom, if_neg (Nat.lt_irrefl 0), hm]
      exact List.cons_ne_nil _ _
    | cons c before ih =>
      intro previous hsome
      rw [List.cons_append, matchesFrom, if_neg (Nat.lt_irrefl 0)]
      split
      · exact List.cons_ne_nil _ _
      · apply ih
        rw [List.getLast?_cons, Option.some_or] at hsome
        rw [show before.getLast?.or (some c) = some (before.getLast?.getD c) by
          cases before.getLast? <;> rfl]
        exact hsome
  unfold search finditer
  rw [hs, List.isSome_head?]
  have hne := hmatches before none (by rwa [Option.or_none])
  simpa using hne

/-! ## Looks -/

/-- No look at all. -/
def anywhere : Option Char → Bool := fun _ => true

/-- The same with `re.IGNORECASE`. -/
def notLetterOrDigit : Option Char → Bool
  | none => true
  | some c => !(c.isAlphanum || c = 'ı' || c = 'İ' || c = 'ſ' || c.toNat = 0x212a)

def isWordChar (i : TextInterpreter) (c : Char) : Bool := i.isAlnum c || c = '_'

/-- `\b` next to a character of a word. -/
def wordBoundary (i : TextInterpreter) : Option Char → Bool
  | none => true
  | some c => !isWordChar i c

/-- `^` and `$` with `re.MULTILINE`. -/
def lineBoundary : Option Char → Bool
  | none => true
  | some c => c = '\n'

end Regex

/-!
## What stands behind keywords

Patterns of the form `\bKEYWORD\s+(…)`, with one keyword or several and `re.IGNORECASE`. A pattern
whose matches do not depend on what comes after it takes a number of characters (`Takes`); behind
keywords it makes a match that can be read off the text (`matchAt_spaced`). `findall` then finds the
names that are read from left to right (`findall_spaced`).
-/

namespace Regex

/-! ## Patterns that take a number of characters -/

/-- Whatever comes after it, the pattern takes as many characters as `f` says. -/
def Takes (r : Regex) (f : List Char → Option ℕ) : Prop :=
  ∀ (s : Place) (k : Place → Option Place), (∀ s', (k s').isSome = true) →
    r.run s k = (f s.rest).bind fun n => k (s.advance n)

/-- A character of a class, and then what `f` says. -/
def takeOne (p : Char → Bool) (f : List Char → Option ℕ) : List Char → Option ℕ
  | [] => none
  | c :: rest => if p c then (f rest).map (· + 1) else none

section
variable {r t : Regex} {p : Char → Bool} {f f' : List Char → Option ℕ}

theorem takes_seq_chars (ht : Takes t f) : Takes (seq (chars p) t) (takeOne p f) := by
  intro s k hk
  rw [run_seq]
  cases hrest : s.rest with
  | nil => exact run_chars_nil hrest
  | cons c rest =>
    have hadvance : (s.advance 1).rest = rest := by simp [Place.advance, hrest]
    rw [run_chars_cons hrest, takeOne]
    split_ifs
    · rw [ht _ k hk, hadvance]
      cases f rest with
      | none => rfl
      | some n =>
        show k ((s.advance 1).advance n) = k (s.advance (n + 1))
        rw [advance_advance, Nat.add_comm]
    · rfl

theorem takes_star_chars : Takes (star (chars p)) fun s => some (s.takeWhile p).length := by
  intro s k hk
  rw [run_star_chars_of_total hk]
  rfl

theorem takes_seq (hr : Takes r f) (ht : Takes t f') (htotal : ∀ s, (f' s).isSome = true) :
    Takes (seq r t) fun s => (f s).bind fun n => (f' (s.drop n)).map (n + ·) := by
  intro s k hk
  rw [run_seq, hr]
  · dsimp only
    cases f s.rest with
    | none => rfl
    | some n =>
      dsimp only [Option.bind_some]
      rw [ht _ k hk, Place.rest_advance]
      cases f' (s.rest.drop n) with
      | none => rfl
      | some n' =>
        show k ((s.advance n).advance n') = k (s.advance (n + n'))
        rw [advance_advance]
  · intro s'
    rw [ht _ k hk]
    obtain ⟨n, hn⟩ := Option.isSome_iff_exists.mp (htotal s'.rest)
    rw [hn]
    exact hk _

theorem takes_opt (hr : Takes r f) : Takes (opt r) fun s => some ((f s).getD 0) := by
  intro s k hk
  rw [run_opt, hr s k hk]
  dsimp only [Option.bind_some]
  cases f s.rest with
  | none =>
    show k s = k (s.advance 0)
    rw [s.advance_zero]
  | some n =>
    obtain ⟨s', hs'⟩ := Option.isSome_iff_exists.mp (hk (s.advance n))
    show (k (s.advance n) <|> k s) = k (s.advance n)
    rw [hs']
    rfl

theorem run_upTo_chars {s : Place} {k : Place → Option Place}
    (hk : ∀ s' : Place, (∃ c ∈ s'.rest.head?, p c = true) → k s' = none) (n : ℕ) :
    run (upTo (chars p) n) s k =
      if (s.rest.takeWhile p).length ≤ n then k (s.advance (s.rest.takeWhile p).length)
      else none := by
  induction n generalizing s with
  | zero =>
    show k s = _
    cases hrest : s.rest with
    | nil => simp
    | cons c rest =>
      by_cases hc : p c = true
      · rw [List.takeWhile_cons_of_pos hc, if_neg (by simp)]
        exact hk s ⟨c, by rw [hrest]; rfl, hc⟩
      · rw [List.takeWhile_cons_of_neg hc]
        simp
  | succ n ih =>
    show (run (chars p) s (fun s' => run (upTo (chars p) n) s' k) <|> k s) = _
    cases hrest : s.rest with
    | nil =>
      rw [run_chars_nil hrest]
      simp
    | cons c rest =>
      have hadvance : (s.advance 1).rest = rest := by simp [Place.advance, hrest]
      rw [run_chars_cons hrest]
      by_cases hc : p c = true
      · rw [if_pos hc, ih, hadvance, advance_advance, List.takeWhile_cons_of_pos hc,
          List.length_cons, Nat.add_comm 1, hk s ⟨c, by rw [hrest]; rfl, hc⟩]
        simp only [Nat.add_le_add_iff_right]
        split_ifs with hle
        · cases k (s.advance ((rest.takeWhile p).length + 1)) <;> rfl
        · rfl
      · rw [if_neg hc, List.takeWhile_cons_of_neg hc]
        simp

end

/-! ## Behind a keyword -/

def behindText : List Char → List Char → Option (List Char)
  | [], s => some s
  | _ :: _, [] => none
  | k :: kw, c :: s => if sameLetter k c then behindText kw s else none

def behindKeyword (kw : String) (s : List Char) : Option (List Char) :=
  match behindText kw.toList s with
  | some (c :: rest) => if isSpace c then some (rest.dropWhile isSpace) else none
  | _ => none

/-- `KEYWORD\s+…` with `re.IGNORECASE`. -/
def spaced (kw : String) (r : Regex) : Regex :=
  seq (textIgnoreCase kw) (seq (plus (chars isSpace)) r)

theorem behindText_suffix {kw s rest : List Char} (h : behindText kw s = some rest) :
    ∃ w, s = w ++ rest ∧ w.length = kw.length := by
  induction kw generalizing s with
  | nil =>
    cases h
    exact ⟨[], rfl, rfl⟩
  | cons k kw ih =>
    cases s with
    | nil => exact nomatch h
    | cons c s =>
      rw [behindText] at h
      split_ifs at h
      obtain ⟨w, rfl, hw⟩ := ih h
      exact ⟨c :: w, rfl, congrArg (· + 1) hw⟩

theorem behindKeyword_suffix {kw : String} {s rest : List Char}
    (h : behindKeyword kw s = some rest) : ∃ w, s = w ++ rest ∧ kw.toList.length < w.length := by
  unfold behindKeyword at h
  cases htext : behindText kw.toList s with
  | none =>
    rw [htext] at h
    exact nomatch h
  | some v =>
    rw [htext] at h
    obtain ⟨w, rfl, hw⟩ := behindText_suffix htext
    cases v with
    | nil => exact nomatch h
    | cons c v =>
      dsimp only at h
      split_ifs at h
      rw [← Option.some.inj h]
      refine ⟨w ++ c :: v.takeWhile isSpace, ?_, ?_⟩
      · rw [List.append_assoc, List.cons_append, List.takeWhile_append_dropWhile]
      · rw [List.length_append, List.length_cons]
        omega

theorem run_textIgnoreCase (kw : String) (s : Place) (k : Place → Option Place) :
    run (textIgnoreCase kw) s k =
      match behindText kw.toList s.rest with
      | some _ => k (s.advance kw.toList.length)
      | none => none := by
  unfold textIgnoreCase
  induction kw.toList generalizing s with
  | nil =>
    show k s = k (s.advance 0)
    rw [s.advance_zero]
  | cons d kw ih =>
    rw [List.foldr_cons, run_seq]
    cases hrest : s.rest with
    | nil => exact run_chars_nil hrest
    | cons c rest =>
      have hadvance : (s.advance 1).rest = rest := by simp [Place.advance, hrest]
      rw [run_chars_cons hrest, behindText]
      by_cases hsame : sameLetter d c = true
      · rw [if_pos hsame, if_pos hsame, ih, hadvance, advance_advance, List.length_cons,
          Nat.add_comm 1]
      · rw [if_neg hsame, if_neg hsame]

theorem sameLetter_of_isSpace {k c : Char} (hk : k.isAlpha = true) (hc : isSpace c = true) :
    sameLetter k c = false := by
  have hall : ∀ n < 123, (Char.ofNat n).isAlpha = true →
      ∀ m ∈ List.range' 9 5 ++ List.range' 0x1c 5 ++ [0x85, 0xa0, 0x1680] ++ List.range' 0x2000 11 ++
        [0x2028, 0x2029, 0x202f, 0x205f, 0x3000],
      sameLetter (Char.ofNat n) (Char.ofNat m) = false := by decide +kernel
  have hletter := hall k.toNat
  rw [Char.ofNat_toNat] at hletter
  have hsame := hletter ?_ hk c.toNat ?_
  · rwa [Char.ofNat_toNat] at hsame
  · change (decide (k.val ≥ 'A'.val ∧ k.val ≤ 'Z'.val) ||
      (k.val ≥ 'a'.val && k.val ≤ 'z'.val)) = true at hk
    simp only [Bool.or_eq_true, Bool.and_eq_true, decide_eq_true_eq, ge_iff_le,
      UInt32.le_iff_toNat_le] at hk
    change k.val.toNat < 123
    have hupper : 'Z'.val.toNat = 90 := rfl
    have hlower : 'z'.val.toNat = 122 := rfl
    omega
  · unfold isSpace at hc
    simp only [Bool.or_eq_true, Bool.and_eq_true, decide_eq_true_eq] at hc
    simp only [List.mem_append, List.mem_range'_1, List.mem_cons, List.not_mem_nil]
    omega

section
variable {r : Regex} {kw : String} {kws : List String}

theorem run_spaced {k : Place → Option Place}
    (hr : ∀ s' : Place, (∃ c ∈ s'.rest.head?, isSpace c = true) → r.run s' k = none) (s : Place) :
    run (spaced kw r) s k =
      match behindKeyword kw s.rest with
      | some rest => r.run (s.advance (s.rest.length - rest.length)) k
      | none => none := by
  unfold spaced behindKeyword
  rw [run_seq, run_textIgnoreCase]
  cases htext : behindText kw.toList s.rest with
  | none => rfl
  | some v =>
    obtain ⟨w, hw, hlength⟩ := behindText_suffix htext
    have hv : (s.advance kw.toList.length).rest = v := by
      rw [Place.rest_advance, hw, ← hlength, List.drop_left]
    dsimp only
    rw [run_seq]
    unfold plus
    rw [run_seq]
    cases v with
    | nil => exact run_chars_nil hv
    | cons c v =>
      rw [run_chars_cons hv]
      by_cases hc : isSpace c = true
      · have htail : ((s.advance kw.toList.length).advance 1).rest = v := by
          rw [Place.rest_advance, hv]
          rfl
        rw [if_pos hc]
        dsimp only
        rw [if_pos hc, run_star_chars_of_rejects hr, htail, advance_advance, advance_advance]
        dsimp only
        congr 2
        have hsplit := congrArg List.length (List.takeWhile_append_dropWhile (p := isSpace) (l := v))
        rw [List.length_append] at hsplit
        rw [hw, List.length_append, List.length_cons]
        omega
      · rw [if_neg hc]
        dsimp only
        rw [if_neg hc]

def behindKeywords : List String → List Char → Option (List Char)
  | [], s => some s
  | kw :: kws, s => (behindKeyword kw s).bind (behindKeywords kws)

/-- `KEYWORD\s+KEYWORD\s+…` with `re.IGNORECASE`. -/
def spacedAll (kws : List String) (r : Regex) : Regex := kws.foldr spaced r

/-- Every keyword begins with a letter. -/
def Lettered (kws : List String) : Prop := ∀ kw ∈ kws, kw.toList.head?.any Char.isAlpha = true

instance (kws : List String) : Decidable (Lettered kws) := by
  unfold Lettered
  infer_instance

theorem behindKeyword_of_isSpace {c : Char} {s : List Char}
    (hkw : kw.toList.head?.any Char.isAlpha = true) (hc : isSpace c = true) :
    behindKeyword kw (c :: s) = none := by
  unfold behindKeyword
  cases hlist : kw.toList with
  | nil =>
    rw [hlist] at hkw
    exact nomatch hkw
  | cons k kw =>
    rw [hlist] at hkw
    rw [behindText, sameLetter_of_isSpace hkw hc, if_neg Bool.false_ne_true]

theorem behindKeywords_suffix {s rest : List Char} (h : behindKeywords kws s = some rest) :
    ∃ w, s = w ++ rest ∧ kws.length ≤ w.length := by
  induction kws generalizing s with
  | nil => exact ⟨[], Option.some.inj h, Nat.le_refl 0⟩
  | cons kw kws ih =>
    rw [behindKeywords, Option.bind_eq_some_iff] at h
    obtain ⟨s', hfirst, hrest⟩ := h
    obtain ⟨w, rfl, hw⟩ := behindKeyword_suffix hfirst
    obtain ⟨w', rfl, hw'⟩ := ih hrest
    refine ⟨w ++ w', (List.append_assoc _ _ _).symm, ?_⟩
    rw [List.length_append, List.length_cons]
    omega

theorem run_spacedAll {k : Place → Option Place} (hkws : Lettered kws)
    (hr : ∀ s' : Place, (∃ c ∈ s'.rest.head?, isSpace c = true) → r.run s' k = none) (s : Place) :
    run (spacedAll kws r) s k =
      match behindKeywords kws s.rest with
      | some rest => r.run (s.advance (s.rest.length - rest.length)) k
      | none => none := by
  induction kws generalizing s with
  | nil =>
    show run r s k = r.run (s.advance (s.rest.length - s.rest.length)) k
    rw [Nat.sub_self, s.advance_zero]
  | cons kw kws ih =>
    have ih := ih fun kw h => hkws kw (List.mem_cons_of_mem _ h)
    show run (spaced kw (spacedAll kws r)) s k = _
    rw [run_spaced, behindKeywords]
    · cases hfirst : behindKeyword kw s.rest with
      | none => rfl
      | some v =>
        obtain ⟨w, hw, -⟩ := behindKeyword_suffix hfirst
        have hv : (s.advance (s.rest.length - v.length)).rest = v := by
          rw [Place.rest_advance, hw, List.length_append, Nat.add_sub_cancel, List.drop_left]
        dsimp only [Option.bind_some]
        rw [ih, hv]
        cases hothers : behindKeywords kws v with
        | none => rfl
        | some rest =>
          obtain ⟨w', hw', -⟩ := behindKeywords_suffix hothers
          dsimp only
          rw [advance_advance]
          congr 2
          rw [hw, hw', List.length_append, List.length_append]
          omega
    · rintro s' ⟨c, hc, hspace⟩
      rw [ih]
      cases kws with
      | nil => exact hr _ (by simpa using ⟨c, hc, hspace⟩)
      | cons kw' kws =>
        have hkw := hkws kw' (List.mem_cons_of_mem _ List.mem_cons_self)
        cases hrest : s'.rest with
        | nil =>
          rw [hrest] at hc
          exact nomatch hc
        | cons d rest =>
          rw [hrest] at hc
          rw [behindKeywords, behindKeyword_of_isSpace hkw (Option.some.inj hc ▸ hspace)]
          rfl

end

/-! ## Names behind keywords -/

section
variable (before : Option Char → Bool) (kws : List String) (f : List Char → Option ℕ)

/-- What `f` reads behind keywords at the beginning of a text, and where it ends. -/
def nameAt (previous : Option Char) (s : List Char) : Option (ℕ × List Char) :=
  if before previous then
    (behindKeywords kws s).bind fun rest =>
      (f rest).map fun n => (s.length - rest.length + n, rest.take n)
  else none

/-- The names that are read behind keywords from left to right. A name is not read where the last
one has not ended. -/
def namesFrom (previous : Option Char) (skip : ℕ) : List Char → List (List Char)
  | [] => []
  | c :: s =>
    if 0 < skip then namesFrom (some c) (skip - 1) s
    else
      match nameAt before kws f previous (c :: s) with
      | some (stop, w) => w :: namesFrom (some c) (min stop (s.length + 1) - 1) s
      | none => namesFrom (some c) 0 s

/-- `\bKEYWORD\s+(name)` with `re.IGNORECASE`. -/
def namePattern (r : Regex) : Guarded :=
  { before := before, pattern := spacedAll kws (group "1" r), after := anywhere }

variable {before kws f} {r : Regex}

/-- The pattern of keywords: what it takes and what it notes can be read off the text. -/
theorem matchAt_spaced (hkws : Lettered kws) (hne : kws ≠ []) (hr : Takes r f)
    (hspace : ∀ c s, isSpace c = true → f (c :: s) = none) (previous : Option Char)
    (s : List Char) :
    (namePattern before kws r).matchAt previous s =
      (nameAt before kws f previous s).map fun found =>
        { taken := s.take found.1, groups := [("1", String.ofList found.2)] } := by
  have hgroup : ∀ (s : Place) (k : Place → Option Place), (∀ s', (k s').isSome = true) →
      run (group "1" r) s k = (f s.rest).bind fun n =>
        k { s.advance n with
            groups := ("1", String.ofList (s.rest.take n)) :: s.groups } := by
    intro s k hk
    show r.run s (fun s' => k { s' with
      groups := ("1", String.ofList (s.rest.take (s.rest.length - s'.rest.length)))
        :: s'.groups }) = _
    rw [hr s _ fun s' => hk _]
    cases f s.rest with
    | none => rfl
    | some n =>
      dsimp only [Option.bind_some]
      have htake : s.rest.take (s.rest.length - (s.advance n).rest.length) = s.rest.take n := by
        rw [Place.rest_advance, List.length_drop]
        rcases Nat.le_total n s.rest.length with hn | hn
        · rw [Nat.sub_sub_self hn]
        · rw [Nat.sub_eq_zero_of_le hn, Nat.sub_zero, List.take_length, List.take_of_length_le hn]
      rw [htake]
      rfl
  unfold Guarded.matchAt nameAt namePattern
  dsimp only
  by_cases hbefore : before previous = true
  · rw [if_pos hbefore, if_pos hbefore]
    have hanywhere : (fun s : Place => if anywhere s.rest.head? = true then some s else none)
        = some := by
      ext1 s
      exact if_pos rfl
    rw [hanywhere, run_spacedAll hkws]
    · dsimp only
      cases hbehind : behindKeywords kws s with
      | none => rfl
      | some rest =>
        obtain ⟨w, rfl, hw⟩ := behindKeywords_suffix hbehind
        have hpos : 0 < w.length := Nat.lt_of_lt_of_le (List.length_pos_of_ne_nil hne) hw
        have hsplit : (w ++ rest).length - rest.length = w.length := by
          rw [List.length_append]
          omega
        dsimp only
        rw [hgroup _ _ fun s' => rfl, hsplit, Place.rest_advance]
        dsimp only [Option.bind_some]
        rw [List.drop_left]
        cases f rest with
        | none => rfl
        | some n =>
          dsimp only [Option.bind_some, Option.map_some]
          rw [Place.rest_advance, Place.rest_advance, List.drop_left, List.length_drop]
          have hlength : (w ++ rest).length = w.length + rest.length := List.length_append
          rw [if_pos (by omega)]
          have htake : (w ++ rest).take ((w ++ rest).length - (rest.length - n))
              = (w ++ rest).take (w.length + n) := by
            rcases Nat.le_total n rest.length with hn | hn
            · rw [hlength, show w.length + rest.length - (rest.length - n) = w.length + n by omega]
            · rw [List.take_of_length_le (by omega), List.take_of_length_le (by omega)]
          rw [htake, hsplit]
          rfl
    · rintro s' ⟨c, hc, hspace'⟩
      rw [hgroup _ _ fun s' => rfl]
      cases hrest : s'.rest with
      | nil =>
        rw [hrest] at hc
        exact nomatch hc
      | cons d rest =>
        rw [hrest] at hc
        rw [hspace d rest (Option.some.inj hc ▸ hspace')]
        rfl
  · rw [if_neg hbefore, if_neg hbefore]
    rfl

theorem findall_spaced (hkws : Lettered kws) (hne : kws ≠ []) (hr : Takes r f)
    (hspace : ∀ c s, isSpace c = true → f (c :: s) = none) (s : String) :
    (namePattern before kws r).findall "1" s =
      (namesFrom before kws f none 0 s.toList).map String.ofList := by
  have hfrom : ∀ (l : List Char) (previous : Option Char) (skip : ℕ),
      ((namePattern before kws r).matchesFrom previous skip l).map (fun m => (m.group "1").getD "")
        = (namesFrom before kws f previous skip l).map String.ofList := by
    intro l
    induction l with
    | nil => exact fun _ _ => rfl
    | cons c l ih =>
      intro previous skip
      rw [Guarded.matchesFrom, namesFrom, matchAt_spaced hkws hne hr hspace]
      split_ifs
      · exact ih (some c) (skip - 1)
      · cases nameAt before kws f previous (c :: l) with
        | none => exact ih (some c) 0
        | some found =>
          dsimp only [Option.map_some]
          rw [List.map_cons, List.map_cons, ih, List.length_take]
          rfl
  exact hfrom s.toList none 0

end

end Regex

end OmnibaseCore
