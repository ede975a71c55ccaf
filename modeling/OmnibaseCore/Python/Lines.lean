import OmnibaseCore.Python.Text

/-!
# Lines

`str.splitlines`. Lines that are ended by a line feed come back (`splitlines_linesText`), and so
do lines with line feeds between them, up to empty ones (`filter_splitlines_intercalate`).
-/

namespace OmnibaseCore

/-- Where `splitlines()` splits. -/
def isLineBreak (c : Char) : Bool :=
  let n := c.toNat
  (0x0a ≤ n && n ≤ 0x0d) || (0x1c ≤ n && n ≤ 0x1e) || n = 0x85 || n = 0x2028 || n = 0x2029

/-- The lines of a text, given whether a carriage return was read last, and the line read so
far. -/
def lineScan : Bool → List Char → List Char → List (List Char)
  | _, line, [] => if line = [] then [] else [line]
  | cr, line, c :: rest =>
    -- `\r\n` is one line break
    if cr && c = '\n' then lineScan false line rest
    else if isLineBreak c then line :: lineScan (c = '\r') [] rest
    else lineScan false (line ++ [c]) rest

/-- `s.splitlines()`. -/
def splitlines (s : String) : List String := (lineScan false [] s.toList).map String.ofList

def IsLine (s : String) : Prop := ∀ c ∈ s.toList, isLineBreak c = false

instance (s : String) : Decidable (IsLine s) := inferInstanceAs (Decidable (∀ c ∈ s.toList, _))

def linesText (lines : List String) : String :=
  String.ofList (lines.flatMap fun line => line.toList ++ ['\n'])

/-! ## What is split -/

theorem not_isLineBreak_of_mem_lineScan {cr : Bool} {line l : List Char}
    (hline : ∀ c ∈ line, isLineBreak c = false) :
    ∀ w ∈ lineScan cr line l, ∀ c ∈ w, isLineBreak c = false := by
  induction l generalizing cr line with
  | nil =>
    intro w hw
    rw [lineScan] at hw
    split_ifs at hw
    · exact absurd hw List.not_mem_nil
    · rw [List.mem_singleton.mp hw]
      exact hline
  | cons c l ih =>
    intro w hw
    rw [lineScan] at hw
    split_ifs at hw with hcr hc
    · exact ih hline w hw
    · rcases List.mem_cons.mp hw with rfl | hw
      · exact hline
      · exact ih (by simp) w hw
    · apply ih _ w hw
      intro d hd
      rcases List.mem_append.mp hd with hd | hd
      · exact hline d hd
      · rw [List.mem_singleton.mp hd]
        simpa using hc

theorem isLine_of_mem_splitlines {s line : String} (h : line ∈ splitlines s) : IsLine line := by
  rcases List.mem_map.mp h with ⟨w, hw, rfl⟩
  unfold IsLine
  rw [String.toList_ofList]
  exact not_isLineBreak_of_mem_lineScan (by simp) w hw

/-! ## Joined lines -/

theorem lineScan_of_isLine {l : List Char} (h : ∀ c ∈ l, isLineBreak c = false)
    (line : List Char) (rest : List Char) :
    lineScan false line (l ++ '\n' :: rest) = (line ++ l) :: lineScan false [] rest := by
  induction l generalizing line with
  | nil =>
    have hbreak : isLineBreak '\n' = true := by decide
    rw [List.nil_append, lineScan, Bool.false_and, if_neg Bool.false_ne_true, if_pos hbreak,
      List.append_nil, decide_eq_false (by decide)]
  | cons c l ih =>
    rw [List.forall_mem_cons] at h
    rw [List.cons_append, lineScan, Bool.false_and, if_neg Bool.false_ne_true, h.1,
      if_neg Bool.false_ne_true, ih h.2, List.append_assoc, List.singleton_append]

theorem lineScan_end {l : List Char} (h : ∀ c ∈ l, isLineBreak c = false) (line : List Char) :
    lineScan false line l = if line ++ l = [] then [] else [line ++ l] := by
  induction l generalizing line with
  | nil => rw [lineScan, List.append_nil]
  | cons c l ih =>
    rw [List.forall_mem_cons] at h
    rw [lineScan, Bool.false_and, if_neg Bool.false_ne_true, h.1, if_neg Bool.false_ne_true,
      ih h.2, List.append_assoc, List.singleton_append]

variable {lines : List String}

section
variable (h : ∀ line ∈ lines, IsLine line)
include h

theorem splitlines_linesText :
    splitlines (linesText lines) = lines := by
  unfold splitlines linesText
  rw [String.toList_ofList]
  induction lines with
  | nil => rfl
  | cons line lines ih =>
    rw [List.forall_mem_cons] at h
    rw [List.flatMap_cons, List.append_assoc, List.singleton_append, lineScan_of_isLine h.1,
      List.map_cons, List.nil_append, String.ofList_toList, ih h.2]

theorem splitlines_intercalate :
    splitlines ("\n".intercalate lines)
      = if lines.getLast? = some "" then lines.dropLast else lines := by
  have hsep : "\n".toList = ['\n'] := rfl
  unfold splitlines
  rw [String.toList_intercalate, hsep]
  induction lines with
  | nil => rfl
  | cons line lines ih =>
    rw [List.forall_mem_cons] at h
    cases lines with
    | nil =>
      rw [List.map_singleton, List.intercalate_singleton, lineScan_end h.1, List.nil_append]
      by_cases hline : line = ""
      · rw [hline]
        rfl
      · rw [if_neg (by simpa using hline), List.map_singleton, String.ofList_toList,
          if_neg (by simpa using hline)]
    | cons line' lines =>
      rw [List.map_cons, List.map_cons, List.intercalate_cons_cons, List.append_assoc,
        List.singleton_append, lineScan_of_isLine h.1, List.nil_append, List.map_cons,
        String.ofList_toList, ← List.map_cons, ih h.2, List.getLast?_cons_cons,
        List.dropLast_cons_cons, apply_ite (List.cons line)]

theorem filter_splitlines_intercalate :
    (splitlines ("\n".intercalate lines)).filter (fun line => line ≠ "")
      = lines.filter fun line => line ≠ "" := by
  rw [splitlines_intercalate h]
  split_ifs with hlast
  · obtain ⟨front, rfl⟩ := List.getLast?_eq_some_iff.mp hlast
    simp
  · rfl

end

end OmnibaseCore
