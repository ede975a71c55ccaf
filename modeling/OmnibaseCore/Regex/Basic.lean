import Mathlib.Data.List.TakeWhile
import Mathlib.Tactic

/-!
# Regular expressions that backtrack

Patterns as `re` runs them: alternatives in the order of the pattern, repetition as often as it
goes, and the first way through that reaches the end of the pattern is the match. A pattern is
run with a continuation, what is left of the pattern, so that giving up on the continuation is
what makes a repetition give characters back.
-/

namespace OmnibaseCore

/-- A pattern. -/
inductive Regex
  | epsilon
  | chars (p : Char → Bool)
  | seq (r s : Regex)
  | alt (r s : Regex)
  | star (r : Regex)
  | group (name : String) (r : Regex)
  | start
  /-- `$`, which also holds before a line feed that ends the text -/
  | finish

namespace Regex

/-- `r+` -/
def plus (r : Regex) : Regex := seq r (star r)

/-- `r?` -/
def opt (r : Regex) : Regex := alt r epsilon

/-- One character. -/
def char (c : Char) : Regex := chars fun d => d = c

def text (s : String) : Regex := s.toList.foldr (fun c r => seq (char c) r) epsilon

/-- How far a run has come: whether it is at the beginning of the text, what is left of the
text, and what the groups have matched, the latest first. -/
structure Place where
  atStart : Bool
  rest : List Char
  groups : List (String × String)
deriving DecidableEq

/-- `match.group(name)`. -/
def Place.group (s : Place) (name : String) : Option String := s.groups.lookup name

/-- The place behind the first `n` characters. -/
def Place.advance (s : Place) (n : ℕ) : Place :=
  { s with atStart := s.atStart && n = 0, rest := s.rest.drop n }

variable (s : Place)

@[simp] theorem Place.advance_zero : s.advance 0 = s := by
  simp [advance]

section
variable {β : Type}

/-- A body as often as it goes, at most `n` times. A turn that takes no character is not one. -/
def iterate (body : Place → (Place → Option β) → Option β) :
    ℕ → Place → (Place → Option β) → Option β
  | 0, s, k => k s
  | n + 1, s, k =>
    (body s fun s' => if s'.rest.length < s.rest.length then iterate body n s' k else none)
      <|> k s

/-- The first way through the pattern that the continuation accepts. -/
def run : Regex → Place → (Place → Option β) → Option β
  | epsilon, s, k => k s
  | chars p, s, k =>
    match s.rest with
    | [] => none
    | c :: _ => if p c then k (s.advance 1) else none
  | seq r t, s, k => r.run s fun s' => t.run s' k
  | alt r t, s, k => r.run s k <|> t.run s k
  | star r, s, k => iterate (fun s k => r.run s k) s.rest.length s k
  | group name r, s, k =>
    r.run s fun s' =>
      let taken := s.rest.take (s.rest.length - s'.rest.length)
      k { s' with groups := (name, String.ofList taken) :: s'.groups }
  | start, s, k => if s.atStart then k s else none
  | finish, s, k => if s.rest = [] ∨ s.rest = ['\n'] then k s else none

end

/-- `pattern.match(text)`: the place where the match ends. -/
def matchPrefix (r : Regex) (s : String) : Option Place :=
  r.run { atStart := true, rest := s.toList, groups := [] } some

/-- `bool(pattern.match(text))`. -/
def accepts (r : Regex) (s : String) : Bool := (r.matchPrefix s).isSome

/-! ## Equations -/

section
variable {β : Type} {p : Char → Bool} {r t : Regex} {s : Place} {k : Place → Option β}

@[simp] theorem run_epsilon : run epsilon s k = k s := rfl

@[simp] theorem run_seq : run (seq r t) s k = r.run s fun s' => t.run s' k := rfl

@[simp] theorem run_alt : run (alt r t) s k = (r.run s k <|> t.run s k) := rfl

theorem run_start (h : s.atStart = true) : run start s k = k s := if_pos h

theorem run_finish :
    run finish s k = if s.rest = [] ∨ s.rest = ['\n'] then k s else none := rfl

@[simp] theorem run_opt : run (opt r) s k = (r.run s k <|> k s) := rfl

theorem run_chars_cons {c : Char} {rest : List Char} (hrest : s.rest = c :: rest) :
    run (chars p) s k = if p c then k (s.advance 1) else none := by
  unfold run
  rw [hrest]

theorem run_chars_nil (hrest : s.rest = []) : run (chars p) s k = none := by
  unfold run
  rw [hrest]

theorem run_chars_eq_none (h : ∀ c ∈ s.rest.head?, p c = false) :
    run (chars p) s k = none := by
  cases hrest : s.rest with
  | nil => exact run_chars_nil hrest
  | cons c rest =>
    rw [hrest] at h
    rw [run_chars_cons hrest, h c rfl, if_neg Bool.false_ne_true]

end

/-! ## A repeated class -/

section
variable {β : Type} {p : Char → Bool}

/-- The first place, from the `n`th character back to the place itself, that the continuation
accepts. -/
def longestFirst (s : Place) (k : Place → Option β) : ℕ → Option β
  | 0 => k s
  | n + 1 => k (s.advance (n + 1)) <|> longestFirst s k n

theorem advance_advance (m n : ℕ) : (s.advance m).advance n = s.advance (m + n) := by
  unfold Place.advance
  rw [List.drop_drop]
  have hstart : (s.atStart && decide (m = 0) && decide (n = 0))
      = (s.atStart && decide (m + n = 0)) := by
    rw [Bool.and_assoc]
    congr 1
    rw [Bool.eq_iff_iff, Bool.and_eq_true, decide_eq_true_eq, decide_eq_true_eq,
      decide_eq_true_eq]
    omega
  simp [hstart]

theorem longestFirst_succ (k : Place → Option β) (n : ℕ) :
    longestFirst s k (n + 1) = (longestFirst (s.advance 1) k n <|> k s) := by
  induction n with
  | zero => simp [longestFirst]
  | succ n ih =>
    rw [longestFirst, ih, longestFirst, advance_advance, Nat.add_comm 1 (n + 1)]
    cases k (s.advance (n + 1 + 1)) <;> rfl

/-- A repeated class takes the longest run of characters, and gives back one at a time. -/
theorem run_star_chars (k : Place → Option β) :
    run (star (chars p)) s k = longestFirst s k (s.rest.takeWhile p).length := by
  have hgen : ∀ (n : ℕ) (s : Place), s.rest.length ≤ n →
      iterate (fun s k => run (chars p) s k) n s k
        = longestFirst s k (s.rest.takeWhile p).length := by
    intro n
    induction n with
    | zero =>
      intro s hlen
      have hrest : s.rest = [] := List.length_eq_zero_iff.mp (by omega)
      rw [iterate, hrest]
      rfl
    | succ n ih =>
      intro s hlen
      rw [iterate]
      cases hrest : s.rest with
      | nil =>
        rw [run_chars_nil hrest]
        rfl
      | cons c rest =>
        rw [run_chars_cons hrest]
        have hlength : (s.advance 1).rest = rest := by simp [Place.advance, hrest]
        by_cases hc : p c = true
        · rw [if_pos hc, if_pos (by rw [hlength]; simp), ih _ (by
            rw [hlength]
            rw [hrest, List.length_cons] at hlen
            omega), hlength, List.takeWhile_cons_of_pos hc, List.length_cons, longestFirst_succ]
        · rw [if_neg hc, List.takeWhile_cons_of_neg hc]
          rfl
  exact hgen _ s le_rfl

/-- What fails wherever a character of the class comes next takes all of them. -/
theorem run_star_chars_of_rejects {s : Place} {k : Place → Option β}
    (hk : ∀ s' : Place, (∃ c ∈ s'.rest.head?, p c = true) → k s' = none) :
    run (star (chars p)) s k = k (s.advance (s.rest.takeWhile p).length) := by
  rw [run_star_chars]
  have hgen : ∀ n, n < (s.rest.takeWhile p).length → longestFirst s k n = none := by
    intro n
    induction n with
    | zero =>
      intro hn
      rw [longestFirst]
      apply hk
      cases hrest : s.rest with
      | nil => simp [hrest] at hn
      | cons c rest =>
        refine ⟨c, rfl, ?_⟩
        by_contra hc
        rw [hrest, List.takeWhile_cons_of_neg hc] at hn
        simp at hn
    | succ n ih =>
      intro hn
      suffices hnone : k (s.advance (n + 1)) = none by
        rw [longestFirst, ih (by omega), hnone]
        rfl
      apply hk
      have hlt : n + 1 < s.rest.length :=
        lt_of_lt_of_le hn (List.takeWhile_prefix p).length_le
      refine ⟨s.rest[n + 1], ?_, ?_⟩
      · simp [Place.advance, List.head?_drop, hlt]
      · have hmem := List.mem_takeWhile_imp (List.getElem_mem hn)
        rwa [(List.takeWhile_prefix p).getElem hn] at hmem
  cases hlen : (s.rest.takeWhile p).length with
  | zero => simp [longestFirst]
  | succ n =>
    rw [longestFirst, hgen n (by omega)]
    cases k (s.advance (n + 1)) <;> rfl

end

end Regex

end OmnibaseCore
