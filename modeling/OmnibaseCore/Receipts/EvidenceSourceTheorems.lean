import OmnibaseCore.Receipts.EvidenceSource
import OmnibaseCore.Receipts.Fences

/-!
# Quoted text and the evidence stamp

The extractor remembers the character of a fence but not its length, and it takes a fence with an
info string for the end of a block. As long as no fence of the character of a block stands inside
of it, the extractor is in a fence exactly when a block is open (`FenceState.next_of`), so that
quoted lines are blanked out (`output_of_isQuoted`) and the stamp is a function of the other lines
(`parse_congr`, `classify_congr`).

* `stampLaw_iff`: bodies without nested fences that differ in quoted lines carry the same stamp,
  and nested fences are what keeps quoted lines from being inert.
* `nestedFence_leaks`: a stamp in a block that counts.
-/

namespace OmnibaseCore.Receipts

open Regex

/-! ## The fence of a line -/

theorem leadingFence_map_char (l : List Char) :
    (leadingFence l).map Fence.char =
      if 3 ≤ (l.takeWhile fun d => d = '`').length then some '`'
      else if 3 ≤ (l.takeWhile fun d => d = '~').length then some '~' else none := by
  cases l with
  | nil => rfl
  | cons c rest =>
    by_cases hback : c = '`'
    · subst hback
      have htilde : ('`' :: rest).takeWhile (fun d => decide (d = '~')) = [] := rfl
      rw [htilde, leadingFence, dif_pos (Or.inl rfl)]
      split_ifs <;> simp_all
    · by_cases htilde : c = '~'
      · subst htilde
        have hnone : ('~' :: rest).takeWhile (fun d => decide (d = '`')) = [] := rfl
        rw [hnone, leadingFence, dif_pos (Or.inr rfl)]
        split_ifs <;> simp_all
      · rw [leadingFence, dif_neg (by simp [hback, htilde])]
        simp [hback, htilde]

theorem head?_of_takeWhile {c : Char} {l : List Char}
    (h : 0 < (l.takeWhile fun d => d = c).length) : l.head? = some c := by
  cases l with
  | nil => exact absurd h (Nat.lt_irrefl 0)
  | cons d l =>
    by_cases hd : d = c
    · rw [hd, List.head?_cons]
    · rw [List.takeWhile_cons_of_neg (by simpa using hd)] at h
      exact absurd h (Nat.lt_irrefl 0)

theorem run_group_fence (c : Char) (s : Place) :
    (group "1" (atLeast (char c) 3)).run s some =
      if 3 ≤ (s.rest.takeWhile fun d => d = c).length then
        some { s.advance (s.rest.takeWhile fun d => d = c).length with
          groups := ("1", String.ofList (s.rest.take (s.rest.takeWhile fun d => d = c).length))
            :: s.groups }
      else none := by
  have hlen := (List.takeWhile_prefix (fun d => decide (d = c)) (l := s.rest)).length_le
  show run (atLeast (chars fun d => d = c) 3) s _ = _
  rw [run_atLeast_chars fun _ => rfl, Place.rest_advance, List.length_drop,
    Nat.sub_sub_self hlen]
  rfl

theorem bind_run_marker (s : Place) :
    (((group "1" (alt (atLeast (char '`') 3) (atLeast (char '~') 3))).run s some).bind
      fun fence => (fence.group "1").bind fun marker => marker.toList.head?)
      = (leadingFence s.rest).map Fence.char := by
  have hhead : ∀ c : Char, 3 ≤ (s.rest.takeWhile fun d => d = c).length →
      (s.rest.take (s.rest.takeWhile fun d => d = c).length).head? = some c := by
    intro c hc
    rw [List.head?_take, if_neg (by omega)]
    exact head?_of_takeWhile (by omega)
  show (((group "1" (atLeast (char '`') 3)).run s some <|>
    (group "1" (atLeast (char '~') 3)).run s some).bind _) = _
  rw [run_group_fence, run_group_fence, leadingFence_map_char]
  by_cases hback : 3 ≤ (s.rest.takeWhile fun d => d = '`').length
  · rw [if_pos hback, if_pos hback]
    show (String.ofList _).toList.head? = _
    rw [String.toList_ofList, hhead _ hback]
  · rw [if_neg hback, if_neg hback]
    show (Option.bind (ite _ _ _) _) = _
    by_cases htilde : 3 ≤ (s.rest.takeWhile fun d => d = '~').length
    · rw [if_pos htilde, if_pos htilde]
      show (String.ofList _).toList.head? = _
      rw [String.toList_ofList, hhead _ htilde]
    · rw [if_neg htilde, if_neg htilde]
      rfl

theorem markerChar_eq (line : String) : markerChar line = (fenceOf line).map Fence.char := by
  -- a space is not a character of a fence, so the pattern takes all of the leading ones
  have hrejects : ∀ s : Place, (∃ c ∈ s.rest.head?, isSpace c = true) →
      (group "1" (alt (atLeast (char '`') 3) (atLeast (char '~') 3))).run s some = none := by
    intro s hs
    rcases hs with ⟨c, hc, hspace⟩
    have hnil : ∀ d : Char, isSpace d = false →
        (s.rest.takeWhile fun d' => d' = d) = [] := by
      intro d hd
      cases hrest : s.rest with
      | nil => rfl
      | cons e rest =>
        rw [hrest, List.head?_cons, Option.mem_some_iff] at hc
        apply List.takeWhile_cons_of_neg
        rw [decide_eq_true_eq]
        rintro rfl
        rw [hc, hspace] at hd
        exact nomatch hd
    show ((group "1" (atLeast (char '`') 3)).run s some <|>
      (group "1" (atLeast (char '~') 3)).run s some) = none
    rw [run_group_fence, run_group_fence, hnil '`' (by decide), hnil '~' (by decide)]
    rfl
  unfold markerChar matchPrefix fenceLinePattern
  rw [run_seq, run_start rfl, run_seq, run_star_chars_of_rejects hrejects, bind_run_marker]
  have hdrop : line.toList.drop (line.toList.takeWhile isSpace).length
      = line.toList.dropWhile isSpace :=
    calc line.toList.drop (line.toList.takeWhile isSpace).length
        = (line.toList.takeWhile isSpace ++ line.toList.dropWhile isSpace).drop
            (line.toList.takeWhile isSpace).length := by rw [List.takeWhile_append_dropWhile]
      _ = line.toList.dropWhile isSpace := List.drop_left
  show (leadingFence (line.toList.drop (line.toList.takeWhile isSpace).length)).map _ = _
  rw [hdrop]
  rfl

/-! ## The extractor and the open block -/

def FenceState.of (block : Option Fence) : FenceState :=
  { inFence := block.isSome, fenceChar := block.map Fence.char }

/-- Where no fence of the same character stands inside of a block, the extractor follows. -/
theorem FenceState.next_of {block : Option Fence} {line : String}
    (h : ∀ f, block = some f → f.closedBy line = false →
      (fenceOf line).map Fence.char ≠ some f.char) :
    FenceState.next (.of block) line = .of (nextBlock block line) := by
  unfold FenceState.next
  rw [markerChar_eq]
  cases hf : fenceOf line with
  | none =>
    rw [nextBlock_of_fenceOf_eq_none hf]
    rfl
  | some g =>
    cases block with
    | none =>
      rw [nextBlock, hf]
      rfl
    | some f =>
      cases hclosed : f.closedBy line with
      | true =>
        have hchar := f.char_of_closedBy hclosed
        rw [hf] at hchar
        rw [nextBlock, hclosed, if_pos rfl]
        show (if some g.char = some f.char then _ else _) = _
        exact if_pos hchar
      | false =>
        have hchar := h f rfl hclosed
        rw [hf] at hchar
        rw [nextBlock, hclosed, if_neg Bool.false_ne_true]
        exact if_neg hchar

theorem FenceState.next_of_nested {f : Fence} {line : String}
    (h : (fenceOf line).map Fence.char = some f.char) :
    FenceState.next (.of (some f)) line = .initial := by
  unfold FenceState.next
  rw [markerChar_eq, h]
  show (if some f.char = some f.char then _ else _) = _
  rw [if_pos rfl]
  rfl

theorem FenceState.output_of_isQuoted {block : Option Fence} {line : String}
    (h : isQuoted block line = true) : FenceState.output (.of block) line = "" := by
  unfold FenceState.output
  rw [markerChar_eq]
  cases hf : fenceOf line with
  | some g => rfl
  | none =>
    cases block with
    | some f => rfl
    | none =>
      rw [isQuoted, hf] at h
      show (if isBlockquote line then "" else line) = ""
      exact if_pos h

variable {lines : List String}

theorem strippedLines_of_unnested (h : Unnested lines) :
    strippedLines lines = (reading lines).map fun e => FenceState.output (.of e.1) e.2 := by
  unfold strippedLines reading
  have hinitial : FenceState.initial = .of none := rfl
  rw [hinitial, Scan.trace_map fun e he => FenceState.next_of (h e he), List.map_map]
  rfl

theorem getElem?_strippedLines (h : Unnested lines) {k : ℕ} {e : Option Fence × String}
    (he : (reading lines)[k]? = some e) (hquoted : isQuoted e.1 e.2 = true) :
    (strippedLines lines)[k]? = some "" := by
  rw [strippedLines_of_unnested h, List.getElem?_map, he, Option.map_some,
    FenceState.output_of_isQuoted hquoted]

theorem filter_strippedLines (h : Unnested lines) :
    (strippedLines lines).filter (fun line => line ≠ "") =
      ((reading (outside lines)).map fun e => FenceState.output (.of e.1) e.2).filter
        fun line => line ≠ "" := by
  have hreading : reading (outside lines)
      = (reading lines).filter fun e => !isQuoted e.1 e.2 :=
    Scan.trace_kept nextBlock_of_dropped_outside none lines
  rw [strippedLines_of_unnested h, hreading, List.filter_map, List.filter_map, List.filter_filter]
  congr 1
  apply List.filter_congr
  intro e _
  cases hquoted : isQuoted e.1 e.2 with
  | false => rw [Bool.not_false, Bool.and_true]
  | true =>
    rw [Bool.not_true, Bool.and_false, Function.comp_apply,
      FenceState.output_of_isQuoted hquoted]
    rfl

/-! ## The stamp is a function of the lines that are not blank -/

/-- The lines of a body without its blank ones, as the extractor sees it. -/
def visibleLines (prBody : String) : List String :=
  (strippedLines (splitlines prBody)).filter fun line => line ≠ ""

theorem isLine_of_mem_strippedLines (h : ∀ line ∈ lines, IsLine line) :
    ∀ line ∈ strippedLines lines, IsLine line := by
  have hempty : IsLine "" := by
    intro c hc
    exact absurd hc (by simp)
  intro line hline
  rcases List.mem_map.mp hline with ⟨e, he, rfl⟩
  have hmem : e.2 ∈ lines := by
    rw [← Scan.map_snd_trace FenceState.next .initial lines]
    exact List.mem_map_of_mem he
  unfold FenceState.output
  split
  · exact hempty
  · split_ifs
    · exact hempty
    · exact hempty
    · exact h e.2 hmem

theorem find?_filter_of_empty {p : String → Bool} (hp : p "" = false) (l : List String) :
    (l.filter fun line => line ≠ "").find? p = l.find? p := by
  rw [List.find?_filter]
  congr 1
  ext line
  by_cases hline : line = ""
  · simp [hline, hp]
  · simp [hline]

theorem findSome?_filter_of_empty {β : Type} {f : String → Option β} (hf : f "" = none)
    (l : List String) : (l.filter fun line => line ≠ "").findSome? f = l.findSome? f := by
  induction l with
  | nil => rfl
  | cons line l ih =>
    rw [List.filter_cons]
    by_cases hline : line = ""
    · rw [if_neg (by simpa using hline), ih, List.findSome?_cons, hline, hf]
    · rw [if_pos (by simpa using hline), List.findSome?_cons, List.findSome?_cons, ih]

variable (i : TextInterpreter)

theorem isStampLine_empty : isStampLine i "" = false := by
  have hlower : i.lower "" = "" := i.lower_eq_self rfl
  rw [isStampLine, hlower]
  rfl

theorem find?_isStampLine (prBody : String) :
    (splitlines (stripNoncanonicalRegions prBody)).find? (isStampLine i)
      = (visibleLines prBody).find? (isStampLine i) := by
  have hlines := isLine_of_mem_strippedLines fun line hline =>
    isLine_of_mem_splitlines (s := prBody) hline
  unfold stripNoncanonicalRegions visibleLines
  rw [← find?_filter_of_empty (isStampLine_empty i), filter_splitlines_intercalate hlines]

theorem splitAt_stripNoncanonicalRegions {prBody : String} (h : splitlines prBody ≠ []) :
    splitAt '\n' (stripNoncanonicalRegions prBody) = strippedLines (splitlines prBody) := by
  have hlines := isLine_of_mem_strippedLines fun line hline =>
    isLine_of_mem_splitlines (s := prBody) hline
  have hne : strippedLines (splitlines prBody) ≠ [] := by
    intro hnil
    apply h
    rw [← List.length_eq_zero_iff, ← Scan.length_trace FenceState.next .initial,
      ← List.length_map fun e : FenceState × String => e.1.output e.2]
    exact congrArg List.length hnil
  apply splitAt_intercalate hne
  intro line hline hmem
  exact absurd (hlines line hline '\n' hmem) (by decide)

theorem searchLine_stripNoncanonicalRegions {r : Regex} (hr : r.fullmatch "" = none)
    (prBody : String) :
    r.searchLine (stripNoncanonicalRegions prBody) =
      (visibleLines prBody).findSome? r.fullmatch := by
  unfold searchLine visibleLines
  rw [findSome?_filter_of_empty hr]
  by_cases hnil : splitlines prBody = []
  · unfold stripNoncanonicalRegions
    rw [hnil]
    show [""].findSome? r.fullmatch = none
    rw [List.findSome?_singleton, hr]
  · rw [splitAt_stripNoncanonicalRegions hnil]

variable {b b' : String}

theorem parse_congr (h : visibleLines b = visibleLines b') :
    parseEvidenceSource i b = parseEvidenceSource i b' := by
  unfold parseEvidenceSource
  rw [find?_isStampLine, find?_isStampLine, h]

theorem classify_congr (i : BodyInterpreter) (h : visibleLines b = visibleLines b') :
    classifyEvidenceSourceStamp i b = classifyEvidenceSourceStamp i b' := by
  have hline : evidenceSourceLinePattern.fullmatch "" = none := rfl
  have hvalue : evidenceSourceValuePattern.fullmatch "" = none := rfl
  unfold classifyEvidenceSourceStamp
  simp only [searchLine_stripNoncanonicalRegions hline, searchLine_stripNoncanonicalRegions hvalue,
    h]

theorem visibleLines_congr (hb : Unnested (splitlines b)) (hb' : Unnested (splitlines b'))
    (h : outside (splitlines b) = outside (splitlines b')) : visibleLines b = visibleLines b' := by
  unfold visibleLines
  rw [filter_strippedLines hb, filter_strippedLines hb', h]

/-! ## The law -/

def QuotedBlank (prBody : String) : Prop :=
  ∀ (k : ℕ) (block : Option Fence) (line : String),
    (reading (splitlines prBody))[k]? = some (block, line) → isQuoted block line = true →
      (splitAt '\n' (stripNoncanonicalRegions prBody))[k]? = some ""

/-- The quoted lines of two bodies make no difference. -/
structure QuotesInert (i : BodyInterpreter) (b b' : String) : Prop where
  parse : parseEvidenceSource i.toTextInterpreter b = parseEvidenceSource i.toTextInterpreter b'
  classify : classifyEvidenceSourceStamp i b = classifyEvidenceSourceStamp i b'
  blank : QuotedBlank b
  blank' : QuotedBlank b'

theorem quotedBlank_of_unnested {prBody : String} (h : Unnested (splitlines prBody)) :
    QuotedBlank prBody := by
  intro k block line he hquoted
  have hne : splitlines prBody ≠ [] := by
    intro hnil
    rw [hnil] at he
    exact nomatch he
  rw [splitAt_stripNoncanonicalRegions hne]
  exact getElem?_strippedLines h he hquoted

theorem quotesInert_of_unnested (i : BodyInterpreter) (hb : Unnested (splitlines b))
    (hb' : Unnested (splitlines b')) (h : outside (splitlines b) = outside (splitlines b')) :
    QuotesInert i b b' where
  parse := parse_congr _ (visibleLines_congr hb hb' h)
  classify := classify_congr i (visibleLines_congr hb hb' h)
  blank := quotedBlank_of_unnested hb
  blank' := quotedBlank_of_unnested hb'

/-! ### A line behind a nested fence -/

theorem Fence.closedBy_x (f : Fence) : f.closedBy "x" = false := by
  have htext : (strip "x").toList = ['x'] := by decide
  have := f.three_le
  unfold closedBy
  rw [htext, Bool.and_eq_false_iff, decide_eq_false_iff_not]
  left
  simp only [List.length_singleton]
  omega

variable {before rest : List String} {line : String} {f : Fence}

theorem frame_insert (hblock : before.foldl nextBlock none = some f)
    (hopen : f.closedBy line = false) (hfence : (fenceOf line).map Fence.char = some f.char) :
    frame (before ++ line :: "x" :: rest) = frame (before ++ line :: rest) := by
  have hsome : (fenceOf line).isSome = true := by
    rw [← Option.isSome_map (f := Fence.char), hfence]
    rfl
  have hx : fenceOf "x" = none := by decide
  have hnext : nextBlock (some f) line = some f := nextBlock_of_isQuoted (by simp [isQuoted, hopen])
  have hstay : nextBlock (some f) "x" = some f := nextBlock_of_fenceOf_eq_none hx
  have hkeep : ∀ l, Scan.kept nextBlock inFrame (some f) (line :: l)
      = line :: Scan.kept nextBlock inFrame (some f) l := by
    intro l
    rw [Scan.kept_cons_of_pos (by rw [inFrame, hsome, Bool.or_true]), hnext]
  have hdrop : Scan.kept nextBlock inFrame (some f) ("x" :: rest)
      = Scan.kept nextBlock inFrame (some f) rest := by
    rw [Scan.kept_cons_of_neg (by rw [inFrame, isQuoted, f.closedBy_x, hx]; rfl), hstay]
  unfold frame
  rw [Scan.kept_append, Scan.kept_append, hblock, hkeep, hkeep, hdrop]

theorem reading_insert (hblock : before.foldl nextBlock none = some f)
    (hopen : f.closedBy line = false) :
    (reading (before ++ line :: "x" :: rest))[before.length + 1]? = some (some f, "x") := by
  have hnext : nextBlock (some f) line = some f := nextBlock_of_isQuoted (by simp [isQuoted, hopen])
  unfold reading
  rw [Scan.trace_append, hblock, Scan.trace_cons, Scan.trace_cons, hnext,
    List.getElem?_append_right (by rw [Scan.length_trace]; omega), Scan.length_trace,
    Nat.add_sub_cancel_left]
  rfl

theorem strippedLines_insert (hbefore : Unnested before)
    (hblock : before.foldl nextBlock none = some f)
    (hfence : (fenceOf line).map Fence.char = some f.char) :
    (strippedLines (before ++ line :: "x" :: rest))[before.length + 1]? = some "x" := by
  have hstate : before.foldl FenceState.next .initial = .of (some f) := by
    have hfold := Scan.foldl_map fun e he => FenceState.next_of (hbefore e he)
    rw [hblock] at hfold
    exact hfold
  unfold strippedLines
  rw [Scan.trace_append, hstate, Scan.trace_cons, Scan.trace_cons,
    FenceState.next_of_nested hfence, List.map_append, List.getElem?_append_right
      (by rw [List.length_map, Scan.length_trace]; omega), List.length_map, Scan.length_trace,
    Nat.add_sub_cancel_left]
  rfl

theorem exists_not_quotedBlank {b : String} (h : ¬ Unnested (splitlines b)) :
    ∃ b', frame (splitlines b) = frame (splitlines b') ∧ ¬ QuotedBlank b' := by
  rcases Scan.exists_first_of_trace h with ⟨before, line, rest, hlines, hbefore, hline⟩
  push Not at hline
  rcases hline with ⟨f, hblock, hopen, hfence⟩
  have hisLine : ∀ l ∈ before ++ line :: "x" :: rest, IsLine l := by
    intro l hl
    by_cases hx : l = "x"
    · rw [hx]
      decide
    · apply isLine_of_mem_splitlines (s := b)
      rw [hlines]
      simp only [List.mem_append, List.mem_cons] at hl ⊢
      tauto
  have hsplit := splitlines_linesText hisLine
  refine ⟨linesText (before ++ line :: "x" :: rest), ?_, ?_⟩
  · rw [hsplit, hlines, frame_insert hblock hopen hfence]
  · intro hblank
    have hk := hblank (before.length + 1) (some f) "x" (by rw [hsplit]; exact reading_insert hblock hopen)
      (by rw [isQuoted, f.closedBy_x]; rfl)
    rw [splitAt_stripNoncanonicalRegions (by rw [hsplit]; simp), hsplit,
      strippedLines_insert hbefore hblock hfence] at hk
    exact absurd hk (by decide)

/-- Without nested fences, quoted lines are inert. Where bodies may differ in quoted lines that do
not begin with a fence, a body without nested fences is what it takes. -/
theorem stampLaw_iff (i : BodyInterpreter) :
    (∀ b b' : String, Unnested (splitlines b) → Unnested (splitlines b') →
      outside (splitlines b) = outside (splitlines b') → QuotesInert i b b') ∧
    ∀ b : String, (∀ b' : String, frame (splitlines b) = frame (splitlines b') →
      QuotesInert i b b') ↔ Unnested (splitlines b) := by
  refine ⟨fun b b' hb hb' h => quotesInert_of_unnested i hb hb' h, fun b => ⟨?_, ?_⟩⟩
  · intro h
    by_contra hb
    rcases exists_not_quotedBlank hb with ⟨b', hframe, hblank⟩
    exact hblank (h b' hframe).blank'
  · intro hb b' hframe
    have hb' : Unnested (splitlines b') := by
      rw [← unnested_frame, ← hframe, unnested_frame]
      exact hb
    apply quotesInert_of_unnested i hb hb'
    rw [← outside_frame, hframe, outside_frame]

def asciiBody : BodyInterpreter where
  toTextInterpreter := asciiText
  casefold := asciiText.lower

/-- In a block of four backticks, a fence of three ends the block for the extractor, and the stamp
behind it counts. -/
theorem nestedFence_leaks :
    ¬ ∀ (i : BodyInterpreter) (b b' : String),
      outside (splitlines b) = outside (splitlines b') → QuotesInert i b b' := by
  intro h
  have hparse := (h asciiBody "````\n````" "````\n```\nEvidence-Source: OCC#1\n````"
    (by decide)).parse
  have hquiet : parseEvidenceSource asciiText "````\n````" = (none, none) := by decide
  have hstamp : parseEvidenceSource asciiText "````\n```\nEvidence-Source: OCC#1\n````"
      = (some "1", none) := by decide
  exact absurd (hquiet.symm.trans (hparse.trans hstamp)) (by decide)

/-! ## Stripping twice -/

theorem FenceState.output_plain (state : FenceState) (line : String) :
    markerChar (state.output line) = none ∧ isBlockquote (state.output line) = false := by
  have hempty : markerChar "" = none ∧ isBlockquote "" = false := by decide
  unfold output
  cases hmarker : markerChar line with
  | some c => exact hempty
  | none =>
    dsimp only
    split_ifs with hfence hquote
    · exact hempty
    · exact hempty
    · exact ⟨hmarker, Bool.eq_false_iff.mpr hquote⟩

theorem strippedLines_of_plain
    (h : ∀ line ∈ lines, markerChar line = none ∧ isBlockquote line = false) :
    strippedLines lines = lines := by
  unfold strippedLines
  induction lines with
  | nil => rfl
  | cons line lines ih =>
    obtain ⟨⟨hmarker, hquote⟩, hrest⟩ := List.forall_mem_cons.mp h
    -- the state stays what it is in the beginning
    have hnext : FenceState.initial.next line = .initial := by
      unfold FenceState.next
      rw [hmarker]
    have houtput : FenceState.initial.output line = line := by
      unfold FenceState.output
      rw [hmarker, hquote]
      rfl
    rw [Scan.trace_cons, List.map_cons, hnext, houtput, ih hrest]

theorem strippedLines_strippedLines (lines : List String) :
    strippedLines (strippedLines lines) = strippedLines lines := by
  apply strippedLines_of_plain
  intro line hline
  obtain ⟨e, -, rfl⟩ := List.mem_map.mp hline
  exact e.1.output_plain e.2

/-- To strip a body again changes nothing, and no line is lost. -/
structure StripLaw (b : String) : Prop where
  idempotent : stripNoncanonicalRegions (stripNoncanonicalRegions b) = stripNoncanonicalRegions b
  lines : (splitlines (stripNoncanonicalRegions b)).length = (splitlines b).length

/-- The last line, if there is one, is neither empty nor blanked out. -/
def EndsPlain (lines : List String) : Prop :=
  ∀ before last, lines = before ++ [last] → last ≠ "" ∧ markerChar last = none ∧
    (before.foldl FenceState.next .initial).inFence = false ∧ isBlockquote last = false

theorem getLast?_strippedLines : (strippedLines lines).getLast? ≠ some "" ↔ EndsPlain lines := by
  have houtput : ∀ (state : FenceState) (last : String), state.output last ≠ "" ↔
      last ≠ "" ∧ markerChar last = none ∧ state.inFence = false ∧ isBlockquote last = false := by
    intro state last
    unfold FenceState.output
    cases markerChar last <;> cases state.inFence <;> cases isBlockquote last <;> simp
  induction lines using List.reverseRecOn with
  | nil => exact iff_of_true (by simp [strippedLines, Scan.trace]) fun _ _ h => by simp at h
  | append_singleton before last _ =>
    unfold strippedLines
    rw [Scan.trace_append, List.map_append, Scan.trace_cons, List.map_cons]
    show (_ ++ [_]).getLast? ≠ _ ↔ _
    rw [List.getLast?_concat, ne_eq, Option.some.injEq, ← ne_eq, houtput]
    constructor
    · intro h before' last' heq
      obtain ⟨rfl, hlast⟩ := List.append_inj' heq rfl
      rwa [List.singleton_inj.mp hlast] at h
    · exact fun h => h before last rfl

/-- The stripper is idempotent and keeps the number of lines exactly if the last line of the body
is kept. -/
theorem stripLaw_iff (b : String) : StripLaw b ↔ EndsPlain (splitlines b) := by
  have hlength : (strippedLines (splitlines b)).length = (splitlines b).length := by
    unfold strippedLines
    rw [List.length_map, Scan.length_trace]
  have hsplit : splitlines (stripNoncanonicalRegions b) = _ := splitlines_intercalate
    (isLine_of_mem_strippedLines fun _ hline => isLine_of_mem_splitlines hline)
  rw [← getLast?_strippedLines]
  constructor
  · intro h hlast
    have hlines := h.lines
    obtain ⟨front, hfront⟩ := List.getLast?_eq_some_iff.mp hlast
    rw [hsplit, if_pos hlast, ← hlength, hfront] at hlines
    simp at hlines
  · intro h
    rw [if_neg h] at hsplit
    refine ⟨?_, by rw [hsplit, hlength]⟩
    show "\n".intercalate (strippedLines (splitlines (stripNoncanonicalRegions b))) = _
    rw [hsplit, strippedLines_strippedLines]
    rfl

/-- A body that ends with a quotation loses its last line when it is stripped again. -/
theorem quotedEnd_not_stripLaw : ¬ StripLaw "OMN-1\n> quoted" := by
  intro h
  exact absurd h.idempotent (by decide)

end OmnibaseCore.Receipts
