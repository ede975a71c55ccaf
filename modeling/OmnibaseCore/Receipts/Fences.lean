import OmnibaseCore.Python.Lines
import OmnibaseCore.Python.Scan

/-!
# Fenced blocks

What Markdown makes of the lines of a text. A fence is three or more backticks or tildes. It opens
a block, and a line of nothing but the same character, as long as the fence or longer, closes it;
so a shorter fence, or one with an info string, is a line of the block.

* `outside` is what is left without the lines of blocks and without quotations.
-/

namespace OmnibaseCore.Receipts

structure Fence where
  char : Char
  length : ℕ
  isFence : char = '`' ∨ char = '~'
  three_le : 3 ≤ length

/-- The fence at the beginning of a line without indentation. -/
def leadingFence : List Char → Option Fence
  | [] => none
  | c :: rest =>
    if hc : c = '`' ∨ c = '~' then
      if hn : 3 ≤ ((c :: rest).takeWhile fun d => d = c).length then some ⟨c, _, hc, hn⟩
      else none
    else none

def fenceOf (line : String) : Option Fence := leadingFence (line.toList.dropWhile isSpace)

def Fence.closedBy (f : Fence) (line : String) : Bool :=
  let text := (strip line).toList
  decide (f.length ≤ text.length) && text.all fun c => c = f.char

def isQuotation (line : String) : Bool := (line.toList.dropWhile isSpace).head? = some '>'

/-- The block that is open behind a line, given the one that is open before it. -/
def nextBlock : Option Fence → String → Option Fence
  | none, line => fenceOf line
  | some f, line => if f.closedBy line then none else some f

def isQuoted (block : Option Fence) (line : String) : Bool :=
  match block with
  | none => (fenceOf line).isNone && isQuotation line
  | some f => !f.closedBy line

def reading (lines : List String) : List (Option Fence × String) :=
  Scan.trace nextBlock none lines

def outside (lines : List String) : List String :=
  Scan.kept nextBlock (fun block line => !isQuoted block line) none lines

def inFrame (block : Option Fence) (line : String) : Bool :=
  !isQuoted block line || (fenceOf line).isSome

/-- The lines that are not quoted, and the quoted lines that begin with a fence. -/
def frame (lines : List String) : List String := Scan.kept nextBlock inFrame none lines

/-- No line inside a block begins with a fence of the character of the block. -/
def Unnested (lines : List String) : Prop :=
  ∀ e ∈ reading lines, ∀ f, e.1 = some f → f.closedBy e.2 = false →
    (fenceOf e.2).map Fence.char ≠ some f.char

instance (lines : List String) : Decidable (Unnested lines) :=
  inferInstanceAs (Decidable (∀ e ∈ reading lines, _))

/-! ## Quoted lines leave the block open -/

variable {line : String}

theorem nextBlock_of_isQuoted {block : Option Fence} (h : isQuoted block line = true) :
    nextBlock block line = block := by
  cases block with
  | none =>
    rw [isQuoted, Bool.and_eq_true, Option.isNone_iff_eq_none] at h
    exact h.1
  | some f =>
    rw [isQuoted, Bool.not_eq_true'] at h
    rw [nextBlock, h, if_neg Bool.false_ne_true]

theorem nextBlock_of_dropped_outside (block : Option Fence) (line : String)
    (h : (!isQuoted block line) = false) : nextBlock block line = block :=
  nextBlock_of_isQuoted (by simpa using h)

theorem nextBlock_of_dropped_frame (block : Option Fence) (line : String)
    (h : inFrame block line = false) : nextBlock block line = block := by
  rw [inFrame, Bool.or_eq_false_iff] at h
  exact nextBlock_of_dropped_outside block line h.1

theorem outside_frame (lines : List String) : outside (frame lines) = outside lines := by
  apply Scan.kept_kept nextBlock_of_dropped_frame
  intro block line h
  rw [inFrame, h, Bool.true_or]

theorem unnested_frame (lines : List String) : Unnested (frame lines) ↔ Unnested lines := by
  unfold Unnested reading frame
  rw [Scan.trace_kept nextBlock_of_dropped_frame]
  constructor
  · intro h e he f hf hclosed hfence
    refine h e (List.mem_filter.mpr ⟨he, ?_⟩) f hf hclosed hfence
    rw [inFrame, Bool.or_eq_true]
    right
    cases hfo : fenceOf e.2 with
    | none =>
      rw [hfo] at hfence
      exact nomatch hfence
    | some _ => rfl
  · intro h e he
    exact h e (List.mem_filter.mp he).1

theorem map_char_leadingFence {f : Fence} {marks rest : List Char}
    (hmarks : ∀ c ∈ marks, c = f.char) (hlength : 3 ≤ marks.length) :
    (leadingFence (marks ++ rest)).map Fence.char = some f.char := by
  cases marks with
  | nil => exact absurd hlength (by decide)
  | cons c marks =>
    have hc : c = f.char := hmarks c List.mem_cons_self
    have htake : ((c :: marks ++ rest).takeWhile fun d => d = c)
        = c :: marks ++ rest.takeWhile fun d => d = c := by
      apply List.takeWhile_append_of_pos
      intro d hd
      rw [decide_eq_true_eq, hmarks d hd, hc]
    have hthree : 3 ≤ ((c :: (marks ++ rest)).takeWhile fun d => d = c).length := by
      rw [← List.cons_append, htake, List.length_append]
      omega
    rw [List.cons_append, leadingFence, dif_pos (hc ▸ f.isFence), dif_pos hthree, Option.map_some]
    exact congrArg some hc

theorem Fence.char_of_closedBy {f : Fence} (h : f.closedBy line = true) :
    (fenceOf line).map Fence.char = some f.char := by
  unfold closedBy strip at h
  rw [String.toList_ofList, Bool.and_eq_true, decide_eq_true_eq, List.all_eq_true] at h
  unfold fenceOf
  have hprefix : ((line.toList.dropWhile isSpace).reverse.dropWhile isSpace).reverse
      <+: line.toList.dropWhile isSpace := by
    rw [← List.reverse_suffix, List.reverse_reverse]
    exact List.dropWhile_suffix isSpace
  rcases hprefix with ⟨rest, hrest⟩
  rw [← hrest]
  apply map_char_leadingFence
  · intro c hc
    exact of_decide_eq_true (h.2 c hc)
  · have := f.three_le
    omega

theorem nextBlock_of_fenceOf_eq_none {block : Option Fence} (h : fenceOf line = none) :
    nextBlock block line = block := by
  cases block with
  | none => exact h
  | some f =>
    cases hclosed : f.closedBy line with
    | true =>
      have hchar := f.char_of_closedBy hclosed
      rw [h] at hchar
      exact nomatch hchar
    | false => rw [nextBlock, hclosed, if_neg Bool.false_ne_true]

end OmnibaseCore.Receipts
