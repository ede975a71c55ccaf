import OmnibaseCore.Regex.Search
import OmnibaseCore.Python.Text

/-!
# Flags

`re.IGNORECASE` for the letters of ASCII, counted repetitions, `pattern.fullmatch`, and
`pattern.search` for a pattern `^…$` with `re.MULTILINE`. A class that is repeated at least so
often takes all of its characters, if whatever follows is content (`run_atLeast_chars`).
-/

namespace OmnibaseCore

namespace Regex

/-- A letter of ASCII with `re.IGNORECASE`, which also goes by the case pairs of Unicode. -/
def sameLetter (c d : Char) : Bool :=
  d.toLower = c.toLower || (c.toLower = 'i' && (d = 'ı' || d = 'İ')) ||
    (c.toLower = 's' && d = 'ſ') || (c.toLower = 'k' && d.toNat = 0x212a)

/-- A text of ASCII with `re.IGNORECASE`. -/
def textIgnoreCase (s : String) : Regex :=
  s.toList.foldr (fun c r => seq (chars (sameLetter c)) r) epsilon

/-- `r{n}` -/
def times (r : Regex) : ℕ → Regex
  | 0 => epsilon
  | n + 1 => seq r (times r n)

/-- `r{0,n}` -/
def upTo (r : Regex) : ℕ → Regex
  | 0 => epsilon
  | n + 1 => opt (seq r (upTo r n))

/-- `r{n,}` -/
def atLeast (r : Regex) (n : ℕ) : Regex := seq (times r n) (star r)

/-- `[0-9a-f]` with `re.IGNORECASE`. -/
def hexDigit : Regex :=
  chars fun c => c.isDigit || ('a' ≤ c.toLower && c.toLower ≤ 'f')

/-- `pattern.fullmatch(text)`. -/
def fullmatch (r : Regex) (s : String) : Option Place :=
  r.run { atStart := true, rest := s.toList, groups := [] } fun s' =>
    if s'.rest = [] then some s' else none

/-- `re.search` of `^r$` with `re.MULTILINE`, for an `r` that takes no line feed: the first line
that `r` matches as a whole. -/
def searchLine (r : Regex) (s : String) : Option Place := (splitAt '\n' s).findSome? r.fullmatch

/-! ## Repetition -/

section
variable {β : Type} {p : Char → Bool} {k : Place → Option β}

theorem run_star_chars_of_total (hk : ∀ s, (k s).isSome = true) (s : Place) :
    run (star (chars p)) s k = k (s.advance (s.rest.takeWhile p).length) := by
  rw [run_star_chars]
  cases (s.rest.takeWhile p).length with
  | zero => rw [longestFirst, s.advance_zero]
  | succ n =>
    rw [longestFirst]
    rcases Option.isSome_iff_exists.mp (hk (s.advance (n + 1))) with ⟨b, hb⟩
    rw [hb]
    rfl

theorem run_atLeast_chars (hk : ∀ s, (k s).isSome = true) (n : ℕ) (s : Place) :
    run (atLeast (chars p) n) s k =
      if n ≤ (s.rest.takeWhile p).length then k (s.advance (s.rest.takeWhile p).length)
      else none := by
  induction n generalizing s with
  | zero =>
    rw [if_pos (Nat.zero_le _), ← run_star_chars_of_total hk]
    rfl
  | succ n ih =>
    show run (chars p) s (fun s' => run (atLeast (chars p) n) s' k) = _
    cases hrest : s.rest with
    | nil =>
      rw [run_chars_nil hrest, if_neg]
      rw [List.takeWhile_nil, List.length_nil]
      omega
    | cons c rest =>
      have hadvance : (s.advance 1).rest = rest := by simp [Place.advance, hrest]
      rw [run_chars_cons hrest]
      by_cases hc : p c = true
      · rw [if_pos hc, ih, hadvance, advance_advance, List.takeWhile_cons_of_pos hc,
          List.length_cons, Nat.add_comm 1]
        simp only [Nat.add_le_add_iff_right]
      · rw [if_neg hc, List.takeWhile_cons_of_neg hc, if_neg]
        rw [List.length_nil]
        omega

end

end Regex

end OmnibaseCore
