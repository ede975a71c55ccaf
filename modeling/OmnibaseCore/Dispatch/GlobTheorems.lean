import OmnibaseCore.Dispatch.NodeDispatch

/-!
# Patterns for topics

A pattern of literals, `*` and `**` matches the topics that it can be aligned with, unless one of
its literals contains the text that stands for `**` while the pattern is escaped.
-/

namespace OmnibaseCore.Dispatch

open Regex

/-- A segment of printable characters of ASCII. -/
def IsSegment (s : String) : Prop :=
  s ≠ "" ∧ ∀ c ∈ s.toList, 32 ≤ c.toNat ∧ c.toNat ≤ 126 ∧ c ≠ '.'

def IsPatternSegment (p : String) : Prop :=
  p = "*" ∨ p = "**" ∨ IsSegment p ∧ '*' ∉ p.toList

variable {p : String}

theorem ne_of_notMem_star (hp : '*' ∉ p.toList) : p ≠ "*" ∧ p ≠ "**" :=
  ⟨fun h => hp (h ▸ by decide), fun h => hp (h ▸ by decide)⟩

theorem IsPatternSegment.isSegment (hp : IsPatternSegment p) : IsSegment p := by
  rcases hp with rfl | rfl | hp
  · exact ⟨by decide, by decide⟩
  · exact ⟨by decide, by decide⟩
  · exact hp.1

/-- What a segment of a pattern matches: a literal the same segment up to case, `*` one segment,
`**` at least one. -/
def Covers (p : String) (part : List String) : Prop :=
  if p = "**" then part ≠ []
  else if p = "*" then part.length = 1
  else ∃ s, part = [s] ∧ s.toList.map Char.toLower = p.toList.map Char.toLower

def Aligned : List String → List String → Prop
  | [], topic => topic = []
  | p :: ps, topic => ∃ part rest, part ++ rest = topic ∧ Covers p part ∧ Aligned ps rest

theorem Covers.length_pos {part : List String} (h : Covers p part) :
    1 ≤ part.length := by
  unfold Covers at h
  split_ifs at h
  · exact List.length_pos_iff.mpr h
  · omega
  · rcases h with ⟨s, rfl, _⟩
    simp

variable {ps topic : List String}

theorem Aligned.length_le (h : Aligned ps topic) :
    ps.length ≤ topic.length := by
  induction ps generalizing topic with
  | nil => simp
  | cons p ps ih =>
    rcases h with ⟨part, rest, rfl, hcovers, hrest⟩
    have hpart := hcovers.length_pos
    have hle := ih hrest
    simp only [List.length_cons, List.length_append]
    omega

/-! ## Segments and their text -/

def dotted (l : List String) : List Char := ['.'].intercalate (l.map String.toList)

variable {l : List String}

theorem dotted_cons (s : String) (hl : l ≠ []) :
    dotted (s :: l) = s.toList ++ '.' :: dotted l := by
  cases l with
  | nil => exact absurd rfl hl
  | cons t l => simp [dotted]

theorem dotted_append {l m : List String} (hl : l ≠ []) (hm : m ≠ []) :
    dotted (l ++ m) = dotted l ++ '.' :: dotted m := by
  induction l with
  | nil => exact absurd rfl hl
  | cons s l ih =>
    by_cases hnil : l = []
    · subst hnil
      simpa [dotted] using dotted_cons s hm
    · rw [List.cons_append, dotted_cons s (by simp [hnil]), dotted_cons s hnil, ih hnil]
      simp

/-- A text is cut at a dot between two segments. -/
theorem exists_of_dotted {u v : List Char} (hl : ∀ s ∈ l, '.' ∉ s.toList)
    (h : dotted l = u ++ '.' :: v) :
    ∃ l₁ l₂, l₁ ++ l₂ = l ∧ l₁ ≠ [] ∧ l₂ ≠ [] ∧ dotted l₁ = u ∧ dotted l₂ = v := by
  induction l generalizing u with
  | nil => simp [dotted] at h
  | cons s l ih =>
    rw [List.forall_mem_cons] at hl
    by_cases hnil : l = []
    · subst hnil
      have hmem : '.' ∈ dotted [s] := by simp [h]
      exact absurd (by simpa [dotted] using hmem) hl.1
    · rw [dotted_cons s hnil] at h
      rcases List.append_eq_append_iff.mp h with ⟨w, rfl, hw⟩ | ⟨w, hs, hw⟩
      · cases w with
        | nil =>
          obtain rfl : dotted l = v := List.tail_eq_of_cons_eq hw
          exact ⟨[s], l, rfl, by simp, hnil, by simp [dotted], rfl⟩
        | cons c w =>
          have hcons := List.cons.inj hw
          rcases ih hl.2 hcons.2 with ⟨l₁, l₂, rfl, h₁, h₂, hu, hv⟩
          refine ⟨s :: l₁, l₂, rfl, by simp, h₂, ?_, hv⟩
          rw [dotted_cons s h₁, hu, hcons.1]
      · cases w with
        | nil =>
          obtain rfl : v = dotted l := List.tail_eq_of_cons_eq hw
          exact ⟨[s], l, rfl, by simp, hnil, by simpa [dotted] using hs, rfl⟩
        | cons c w =>
          -- the segment would have this dot
          have hc : '.' = c := (List.cons.inj hw).1
          exact absurd (by simp [hs, ← hc]) hl.1

/-! ## Replacements -/

section
variable {a new : List Char}

/-- What stands behind a segment. -/
def Ends (v : List Char) : Prop := ∀ c ∈ v.head?, c = '.'

theorem prefix_of_append {u v : List Char} (hdot : '.' ∉ a) (hv : Ends v) (h : a <+: u ++ v) :
    a <+: u := by
  rcases h with ⟨w, hw⟩
  rcases List.append_eq_append_iff.mp hw with ⟨s, rfl, _⟩ | ⟨s, rfl, hs⟩
  · exact List.prefix_append a s
  · cases s with
    | nil => simp
    | cons c s =>
      have hc : c = '.' := hv c (by simp [hs])
      exact absurd (by simp [hc]) hdot

theorem replaceScan_ne_nil (hnew : new ≠ []) {l : List Char} (hl : l ≠ []) (n : ℕ) :
    replaceScan a new n l ≠ [] := by
  cases n with
  | zero => exact hl
  | succ n =>
    cases l with
    | nil => exact absurd rfl hl
    | cons c l =>
      rw [replaceScan]
      split_ifs <;> simp [hnew]

theorem mem_of_mem_replaceScan {n : ℕ} {l : List Char} {d : Char}
    (hd : d ∈ replaceScan a new n l) : d ∈ new ∨ d ∈ l := by
  fun_induction replaceScan a new n l with
  | case1 => exact Or.inr hd
  | case2 => exact absurd hd List.not_mem_nil
  | case3 n c l hstarts ih =>
    rcases List.mem_append.mp hd with h | h
    · exact Or.inl h
    · exact (ih h).imp_right List.mem_of_mem_drop
  | case4 n c l hstarts ih =>
    rcases List.mem_cons.mp hd with h | h
    · exact Or.inr (h ▸ List.mem_cons_self)
    · exact (ih h).imp_right (List.mem_cons_of_mem c)

theorem length_replaceScan (hnew : new.length < a.length) {n : ℕ} {l : List Char}
    (hn : l.length ≤ n) : (replaceScan a new n l).length ≤ l.length ∧
      (a <:+: l → (replaceScan a new n l).length < l.length) := by
  have hnil : ¬ a <:+: [] := fun h => absurd h.length_le (by rw [List.length_nil]; omega)
  fun_induction replaceScan a new n l with
  | case1 l =>
    obtain rfl : l = [] := by simpa using hn
    exact ⟨le_rfl, fun h => absurd h hnil⟩
  | case2 => exact ⟨le_rfl, fun h => absurd h hnil⟩
  | case3 n c l hstarts ih =>
    have hlength := (List.isPrefixOf_iff_prefix.mp hstarts).length_le
    simp only [List.length_append, List.length_drop, List.length_cons] at ih hn hlength ⊢
    have hrest := (ih (by omega)).1
    omega
  | case4 n c l hstarts ih =>
    have hn : l.length ≤ n := Nat.le_of_succ_le_succ hn
    simp only [List.length_cons, Nat.add_le_add_iff_right, Nat.add_lt_add_iff_right]
    refine ⟨(ih hn).1, fun h => (ih hn).2 ?_⟩
    rcases List.infix_cons_iff.mp h with h | h
    · exact absurd (List.isPrefixOf_iff_prefix.mpr h) hstarts
    · exact h

theorem replaceScan_fuel (ha : a ≠ []) {l : List Char} {m n : ℕ} (hm : l.length ≤ m)
    (hn : l.length ≤ n) : replaceScan a new m l = replaceScan a new n l := by
  have hpos := List.length_pos_iff.mpr ha
  induction m generalizing l n with
  | zero =>
    obtain rfl : l = [] := by simpa using hm
    cases n <;> rfl
  | succ m ih =>
    cases l with
    | nil => cases n <;> rfl
    | cons c l =>
      obtain ⟨n, rfl⟩ := Nat.exists_eq_add_of_le' (Nat.one_le_of_lt hn)
      simp only [List.length_cons, Nat.add_le_add_iff_right] at hm hn
      have hdrop : ((c :: l).drop a.length).length ≤ l.length := by
        simp only [List.length_drop, List.length_cons]
        omega
      rw [replaceScan, replaceScan, ih hm hn, ih (hdrop.trans hm) (hdrop.trans hn)]

/-- A text without dots is not found across a dot. -/
theorem replaceScan_split (ha : a ≠ []) (hdot : '.' ∉ a) {l v : List Char} (hv : Ends v)
    {k m n : ℕ} (hk : l.length ≤ k) (hm : v.length ≤ m) (hn : (l ++ v).length ≤ n) :
    replaceScan a new n (l ++ v) = replaceScan a new k l ++ replaceScan a new m v := by
  have hpos := List.length_pos_iff.mpr ha
  induction k generalizing l n with
  | zero =>
    obtain rfl : l = [] := by simpa using hk
    exact replaceScan_fuel ha hn hm
  | succ k ih =>
    cases l with
    | nil => exact replaceScan_fuel ha hn hm
    | cons c l =>
      obtain ⟨n, rfl⟩ := Nat.exists_eq_add_of_le' (Nat.one_le_of_lt hn)
      simp only [List.length_cons, List.cons_append, Nat.add_le_add_iff_right] at hk hn
      rw [List.cons_append, replaceScan, replaceScan]
      by_cases h : a <+: c :: l
      · have hdrop : ((c :: l).drop a.length).length ≤ l.length := by
          simp only [List.length_drop, List.length_cons]
          omega
        have hstarts := List.isPrefixOf_iff_prefix.mpr (h.trans (List.prefix_append _ v))
        rw [List.cons_append] at hstarts
        rw [if_pos hstarts, if_pos (List.isPrefixOf_iff_prefix.mpr h), ← List.cons_append,
          List.drop_append_of_le_length h.length_le, ih (hdrop.trans hk), List.append_assoc]
        rw [List.length_append] at hn ⊢
        omega
      · have hstarts : ¬ a <+: c :: (l ++ v) := fun h' => h (prefix_of_append hdot hv h')
        rw [if_neg (mt List.isPrefixOf_iff_prefix.mp hstarts),
          if_neg (mt List.isPrefixOf_iff_prefix.mp h), ih hk hn, List.cons_append]

theorem replaceScan_dotted {old new : String} (hold : old ≠ "") (hdot : '.' ∉ old.toList)
    {ls : List String} {n : ℕ} (hn : (dotted ls).length ≤ n) :
    replaceScan old.toList new.toList n (dotted ls) = dotted (ls.map (replaceText old new)) := by
  have ha : old.toList ≠ [] := by simpa using hold
  induction ls generalizing n with
  | nil => cases n <;> rfl
  | cons s ls ih =>
    have hs : s.toList.length ≤ s.length := String.length_toList.le
    by_cases hnil : ls = []
    · subst hnil
      have hone : dotted [s] = s.toList := by simp [dotted]
      rw [hone] at hn ⊢
      simpa [dotted, replaceText] using replaceScan_fuel ha hn hs
    · have hstarts : ¬ old.toList <+: '.' :: dotted ls := fun h =>
        ha (List.prefix_nil.mp (prefix_of_append hdot (u := []) (by simp [Ends]) h))
      have hfuel : ('.' :: dotted ls).length ≤ (dotted ls).length + 1 := le_rfl
      rw [dotted_cons s hnil] at hn ⊢
      rw [List.map_cons, dotted_cons _ (by simpa using hnil),
        replaceScan_split ha hdot (by simp [Ends]) hs hfuel hn, replaceScan,
        if_neg (mt List.isPrefixOf_iff_prefix.mp hstarts), ih le_rfl]
      simp [replaceText]

end

/-! ## The compiled pattern -/

section
variable {i : TopicInterpreter}

theorem sameLetter_iff {c d : Char} (hc : c.toNat < 128) (hd : d.toNat < 128) :
    i.sameLetter c d = true ↔ d.toLower = c.toLower := by
  have hne : ∀ e : Char, 128 ≤ e.toNat → d ≠ e := by
    rintro e he rfl
    omega
  rw [i.sameLetter_ascii c d hc]
  unfold Regex.sameLetter
  simp [hne 'ı' (by decide), hne 'İ' (by decide), hne 'ſ' (by decide), show d.toNat ≠ 0x212a by omega]

theorem plain_topicPieces (n : ℕ) (l : List Char) : (topicPieces i n l).Plain := by
  fun_induction topicPieces i n l with
  | case1 | case2 => trivial
  | case3 n c l hstarts ih => exact ⟨trivial, ih⟩
  | case4 n l hstarts ih => exact ⟨⟨trivial, trivial⟩, ih⟩
  | case5 n c l hstarts hstar ih => exact ⟨trivial, ih⟩

theorem isSegment_replaceText {old new s : String} (hnew : IsSegment new) (hs : IsSegment s) :
    IsSegment (replaceText old new s) := by
  unfold replaceText
  constructor
  · intro h
    exact replaceScan_ne_nil (by simpa using hnew.1) (by simpa using hs.1) _
      (String.ofList_eq_empty_iff.mp h)
  · intro c hc
    rw [String.toList_ofList] at hc
    rcases mem_of_mem_replaceScan hc with hc | hc
    · exact hnew.2 c hc
    · exact hs.2 c hc

/-- A segment of a pattern in the text that is escaped. -/
def placed (p : String) : String := replaceText "**" doubleStar p

theorem placed_of_notMem (hp : '*' ∉ p.toList) : placed p = p := by
  have hquiet : Quiet "**".toList p.toList [] :=
    quiet_of_forall fun t ht _ h =>
      hp (ht.subset (List.append_nil t ▸ h.subset (show '*' ∈ "**".toList by decide)))
  have happend : replaceScan "**".toList doubleStar.toList p.length (p.toList ++ []) = _ :=
    replaceScan_append hquiet (by simp [String.length_toList])
  have hnil : ∀ n, replaceScan "**".toList doubleStar.toList n [] = [] := by
    intro n
    cases n <;> rfl
  rw [hnil, List.append_nil] at happend
  unfold placed replaceText
  rw [happend, String.ofList_toList]

/-- What the pieces of a segment match. -/
def Reads (i : TopicInterpreter) (p : String) (u : List Char) : Prop :=
  if p = "**" then ∀ c ∈ u, c ≠ '\n'
  else if p = "*" then u ≠ [] ∧ ∀ c ∈ u, c ≠ '.'
  else List.Forall₂ (fun c d => i.sameLetter c d = true) p.toList u

theorem mem_topicPieces_literal {u v w : List Char} (hu : '*' ∉ u)
    (hquiet : Quiet doubleStar.toList u v) {n : ℕ} (hn : (u ++ v).length ≤ n) :
    w ∈ (topicPieces i n (u ++ v)).language ↔
      ∃ x, List.Forall₂ (fun c d => i.sameLetter c d = true) u x ∧
        ∃ y ∈ (topicPieces i (n - u.length) v).language, x ++ y = w := by
  induction u generalizing n w with
  | nil => simp
  | cons c u ih =>
    cases n with
    | zero => exact absurd hn (by simp)
    | succ n =>
      have hstar : c ≠ '*' := fun h => hu (h ▸ List.mem_cons_self)
      rw [List.cons_append, topicPieces, if_neg (mt List.isPrefixOf_iff_prefix.mp hquiet.1),
        if_neg hstar, mem_language_seq]
      simp only [ih (fun h => hu (List.mem_cons_of_mem c h)) hquiet.2 (by simpa using hn),
        List.length_cons, Nat.add_sub_add_right]
      constructor
      · rintro ⟨_, ⟨d, hd, rfl⟩, _, ⟨x, hx, y, hy, rfl⟩, rfl⟩
        exact ⟨d :: x, List.Forall₂.cons hd hx, y, hy, rfl⟩
      · rintro ⟨_, hx, y, hy, rfl⟩
        cases hx with
        | cons hd hx => exact ⟨_, ⟨_, hd, rfl⟩, _, ⟨_, hx, y, hy, rfl⟩, rfl⟩

theorem mem_topicPieces_segment (hp : IsPatternSegment p)
    (hclean : ¬ doubleStar.toList <:+: p.toList) {v : List Char} (hv : Ends v) {n : ℕ}
    (hn : ((placed p).toList ++ v).length ≤ n) :
    ∃ m, v.length ≤ m ∧ ∀ w, w ∈ (topicPieces i n ((placed p).toList ++ v)).language ↔
      ∃ x, Reads i p x ∧ ∃ y ∈ (topicPieces i m v).language, x ++ y = w := by
  rcases hp with rfl | rfl | hp
  · have hplaced : (placed "*").toList ++ v = '*' :: v := rfl
    rw [hplaced] at hn ⊢
    obtain ⟨n, rfl⟩ := Nat.exists_eq_add_of_le' (Nat.one_le_of_lt hn)
    refine ⟨n, by simpa using hn, fun w => ?_⟩
    rw [topicPieces, if_neg (by simp [doubleStar]), if_pos rfl, mem_language_seq]
    simp [mem_language_plus_chars, Reads]
  · have hplaced : (placed "**").toList ++ v = '_' :: (doubleStar.toList.tail ++ v) := rfl
    rw [hplaced] at hn ⊢
    obtain ⟨n, rfl⟩ := Nat.exists_eq_add_of_le' (Nat.one_le_of_lt hn)
    have hstarts : doubleStar.toList.isPrefixOf ('_' :: (doubleStar.toList.tail ++ v)) = true :=
      List.isPrefixOf_iff_prefix.mpr ⟨v, rfl⟩
    have hdrop : ('_' :: (doubleStar.toList.tail ++ v)).drop doubleStar.toList.length = v := rfl
    refine ⟨n, ?_, fun w => ?_⟩
    · simp only [List.length_cons, List.length_append] at hn
      omega
    · rw [topicPieces, if_pos hstarts, hdrop, mem_language_seq]
      simp [mem_language_star_chars, Reads]
  · have hne := ne_of_notMem_star hp.2
    rw [placed_of_notMem hp.2] at hn ⊢
    refine ⟨n - p.toList.length, ?_, fun w => ?_⟩
    · rw [List.length_append] at hn
      omega
    · have hquiet : Quiet doubleStar.toList p.toList v := quiet_of_forall fun t ht _ h =>
        hclean ((prefix_of_append (by decide) hv h).isInfix.trans ht.isInfix)
      rw [mem_topicPieces_literal hp.2 hquiet hn]
      simp only [Reads, if_neg hne.1, if_neg hne.2]

/-! ## Topics -/

theorem IsSegment.notDot {s : String} (hs : IsSegment s) : '.' ∉ s.toList :=
  fun h => (hs.2 _ h).2.2 rfl

theorem eq_dot_of_toLower {d : Char} (hd : d.toNat < 128) (h : d.toLower = '.') : d = '.' := by
  have hall : ∀ n < 128, (Char.ofNat n).toLower = '.' → Char.ofNat n = '.' := by decide
  have hd' := hall d.toNat hd
  rw [Char.ofNat_toNat] at hd'
  exact hd' h

theorem mem_dotted (hl : ∀ s ∈ l, IsSegment s) {c : Char} (hc : c ∈ dotted l) :
    32 ≤ c.toNat ∧ c.toNat ≤ 126 := by
  rcases of_mem_intercalate hc with rfl | ⟨u, hu, hcu⟩
  · decide
  · rcases List.mem_map.mp hu with ⟨s, hs, rfl⟩
    have hprintable := (hl s hs).2 c hcu
    exact ⟨hprintable.1, hprintable.2.1⟩

theorem eq_singleton_of_dotted (hne : l ≠ []) (h : '.' ∉ dotted l) :
    ∃ s, l = [s] := by
  cases l with
  | nil => exact absurd rfl hne
  | cons s l =>
    by_cases hl : l = []
    · exact ⟨s, by rw [hl]⟩
    · rw [dotted_cons s hl] at h
      exact absurd (by simp) h

theorem forall₂_sameLetter_iff {l w : List Char} (hl : ∀ c ∈ l, c.toNat < 128)
    (hw : ∀ d ∈ w, d.toNat < 128) :
    List.Forall₂ (fun c d => i.sameLetter c d = true) l w ↔
      w.map Char.toLower = l.map Char.toLower := by
  induction l generalizing w with
  | nil => simp
  | cons c l ih =>
    cases w with
    | nil => simp
    | cons d w =>
      rw [List.forall_mem_cons] at hl hw
      rw [List.forall₂_cons, sameLetter_iff hl.1 hw.1, ih hl.2 hw.2, List.map_cons, List.map_cons,
        List.cons.injEq]

/-- A segment of the pattern reads the segments that it covers. -/
theorem reads_dotted (hp : IsPatternSegment p) (hne : l ≠ [])
    (hl : ∀ s ∈ l, IsSegment s) : Reads i p (dotted l) ↔ Covers p l := by
  have hone : ∀ s : String, dotted [s] = s.toList := by simp [dotted]
  rcases hp with rfl | rfl | hp
  · show dotted l ≠ [] ∧ (∀ c ∈ dotted l, c ≠ '.') ↔ l.length = 1
    constructor
    · intro h
      rcases eq_singleton_of_dotted hne fun hdot => h.2 _ hdot rfl with ⟨s, rfl⟩
      rfl
    · intro h
      rcases List.length_eq_one_iff.mp h with ⟨s, rfl⟩
      have hs := hl s List.mem_cons_self
      rw [hone]
      exact ⟨by simpa using hs.1, fun c hc => (hs.2 c hc).2.2⟩
  · show (∀ c ∈ dotted l, c ≠ '\n') ↔ l ≠ []
    refine iff_of_true (fun c hc => ?_) hne
    rintro rfl
    exact absurd (mem_dotted hl hc).1 (by decide)
  · have hascii : ∀ c ∈ p.toList, c.toNat < 128 := by
      intro c hc
      have := (hp.1.2 c hc).2.1
      omega
    have hsame := forall₂_sameLetter_iff (i := i) hascii (w := dotted l) fun d hd => by
      have := (mem_dotted hl hd).2
      omega
    have hp' := ne_of_notMem_star hp.2
    rw [Reads, Covers, if_neg hp'.2, if_neg hp'.1, if_neg hp'.2, if_neg hp'.1, hsame]
    constructor
    · intro h
      have hdot : '.' ∉ dotted l := by
        intro hdot
        have hmem : '.' ∈ p.toList.map Char.toLower := by
          rw [← h]
          exact List.mem_map.mpr ⟨'.', hdot, rfl⟩
        rcases List.mem_map.mp hmem with ⟨c, hc, hlower⟩
        exact (hp.1.2 c hc).2.2 (eq_dot_of_toLower (hascii c hc) hlower)
      rcases eq_singleton_of_dotted hne hdot with ⟨s, rfl⟩
      exact ⟨s, rfl, hone s ▸ h⟩
    · rintro ⟨s, rfl, hs⟩
      rw [hone, hs]

/-- A topic matches if and only if its segments align with those of the pattern. -/
theorem mem_language_dotted (hps : ∀ p ∈ ps, IsPatternSegment p)
    (hclean : ∀ p ∈ ps, ¬ doubleStar.toList <:+: p.toList) (hne : ps ≠ []) (htopic : topic ≠ [])
    (hsegment : ∀ s ∈ topic, IsSegment s) {n : ℕ} (hn : (dotted (ps.map placed)).length ≤ n) :
    dotted topic ∈ (topicPieces i n (dotted (ps.map placed))).language ↔ Aligned ps topic := by
  induction ps generalizing topic n with
  | nil => exact absurd rfl hne
  | cons p ps ih =>
    rw [List.forall_mem_cons] at hps hclean
    by_cases hnil : ps = []
    · subst hnil
      have hone : dotted [placed p] = (placed p).toList ++ [] := by simp [dotted]
      rw [List.map_singleton, hone] at hn ⊢
      rcases mem_topicPieces_segment hps.1 hclean.1 (by simp [Ends]) hn with ⟨m, _, hmem⟩
      have hempty : topicPieces i m [] = epsilon := by cases m <;> rfl
      have hlast : ∀ y : List Char, y ∈ epsilon.language ↔ y = [] := fun y => Iff.rfl
      rw [hmem, hempty]
      simp [hlast, Aligned, reads_dotted hps.1 htopic hsegment]
    · have hmap : ps.map placed ≠ [] := by simpa using hnil
      rw [List.map_cons, dotted_cons _ hmap] at hn ⊢
      rcases mem_topicPieces_segment hps.1 hclean.1 (by simp [Ends]) hn with ⟨m, hm, hmem⟩
      rw [hmem]
      obtain ⟨m, rfl⟩ := Nat.exists_eq_add_of_le' (Nat.one_le_of_lt hm)
      rw [topicPieces, if_neg (by simp [doubleStar]), if_neg (by decide)]
      have hm : (dotted (ps.map placed)).length ≤ m := by simpa using hm
      constructor
      · rintro ⟨x, hx, y, hy, htext⟩
        rcases mem_language_seq.mp hy with ⟨_, ⟨d, hd, rfl⟩, z, hz, rfl⟩
        have hmem : d ∈ dotted topic := by simp [← htext]
        have hd' : d.toNat < 128 := by
          have := (mem_dotted hsegment hmem).2
          omega
        obtain rfl := eq_dot_of_toLower hd' ((sameLetter_iff (by decide) hd').mp hd)
        rcases exists_of_dotted (fun s hs => (hsegment s hs).notDot) htext.symm with
          ⟨part, rest, rfl, hpart, hrest, rfl, rfl⟩
        rw [List.forall_mem_append] at hsegment
        exact ⟨part, rest, rfl, (reads_dotted hps.1 hpart hsegment.1).mp hx,
          (ih hps.2 hclean.2 hnil hrest hsegment.2 hm).mp hz⟩
      · rintro ⟨part, rest, rfl, hcovers, haligned⟩
        rw [List.forall_mem_append] at hsegment
        have hpart : part ≠ [] := List.length_pos_iff.mp hcovers.length_pos
        have hrest : rest ≠ [] :=
          List.length_pos_iff.mp ((List.length_pos_iff.mpr hnil).trans_le haligned.length_le)
        refine ⟨dotted part, (reads_dotted hps.1 hpart hsegment.1).mpr hcovers, '.' :: dotted rest,
          mem_language_seq.mpr ⟨['.'], ⟨'.', ?_, rfl⟩, dotted rest, ?_, rfl⟩,
          (dotted_append hpart hrest).symm⟩
        · exact (sameLetter_iff (by decide) (by decide)).mpr rfl
        · exact (ih hps.2 hclean.2 hnil hrest hsegment.2 hm).mpr haligned

/-! ## Literals with the placeholder -/

/-- A segment with the placeholder replaced, which the pattern still matches. -/
def sample (p : String) : String := replaceText doubleStar "x" (placed p)

theorem mem_topicPieces_sample {l : List Char} (hl : ∀ c ∈ l, c.toNat < 128) {k n : ℕ}
    (hk : l.length ≤ k) (hn : l.length ≤ n) :
    replaceScan doubleStar.toList "x".toList k l ∈ (topicPieces i n l).language := by
  induction n generalizing l k with
  | zero =>
    obtain rfl : l = [] := by simpa using hn
    cases k <;> rfl
  | succ n ih =>
    cases l with
    | nil => cases k <;> rfl
    | cons c l =>
      obtain ⟨k, rfl⟩ := Nat.exists_eq_add_of_le' (Nat.one_le_of_lt hk)
      simp only [List.length_cons, Nat.add_le_add_iff_right] at hk hn
      rw [topicPieces, replaceScan]
      split_ifs with hstarts hstar
      · have hdrop : ((c :: l).drop doubleStar.toList.length).length ≤ l.length := by
          simp [doubleStar]
        exact mem_language_seq.mpr ⟨['x'], mem_language_star_chars.mpr (by simp), _,
          ih (fun d hd => hl d (List.mem_of_mem_drop hd)) (hdrop.trans hk) (hdrop.trans hn), rfl⟩
      · exact mem_language_seq.mpr ⟨[c], mem_language_plus_chars.mpr (by simp [hstar]), _,
          ih (fun d hd => hl d (List.mem_cons_of_mem c hd)) hk hn, rfl⟩
      · have hc := hl c List.mem_cons_self
        exact mem_language_seq.mpr ⟨[c], ⟨c, (sameLetter_iff hc hc).mpr rfl, rfl⟩, _,
          ih (fun d hd => hl d (List.mem_cons_of_mem c hd)) hk hn, rfl⟩

/-- With as many segments as the pattern, each segment is for one of its segments. -/
theorem Aligned.covers_each {f : String → String} {ps : List String}
    (h : Aligned ps (ps.map f)) : ∀ p ∈ ps, Covers p [f p] := by
  induction ps with
  | nil => simp
  | cons p ps ih =>
    rcases h with ⟨part, rest, heq, hcovers, hrest⟩
    have hlength := congrArg List.length heq
    have hle := hrest.length_le
    have hpos := hcovers.length_pos
    simp only [List.length_append, List.length_map, List.length_cons] at hlength
    obtain ⟨s, rfl⟩ := List.length_eq_one_iff.mp (show part.length = 1 by omega)
    obtain ⟨rfl, rfl⟩ := List.cons.inj heq
    exact List.forall_mem_cons.mpr ⟨hcovers, ih hrest⟩

theorem not_aligned_sample {ps : List String} (hps : ∀ p ∈ ps, IsPatternSegment p)
    (hp : p ∈ ps) (hbad : doubleStar.toList <:+: p.toList) : ¬ Aligned ps (ps.map sample) := by
  intro h
  have hcovers := h.covers_each p hp
  rcases hps p hp with rfl | rfl | hliteral
  · exact absurd hbad (by decide)
  · exact absurd hbad (by decide)
  · have hne := ne_of_notMem_star hliteral.2
    rw [Covers, if_neg hne.2, if_neg hne.1] at hcovers
    rcases hcovers with ⟨s, hs, hsame⟩
    have hlength := congrArg List.length hsame
    have hnew : "x".toList.length < doubleStar.toList.length := by decide
    have hfuel : p.toList.length ≤ p.length := String.length_toList.le
    have hshort := (length_replaceScan hnew hfuel).2 hbad
    rw [← List.singleton_inj.mp hs, sample, placed_of_notMem hliteral.2] at hlength
    simp only [List.length_map, replaceText, String.toList_ofList] at hlength
    omega

end

/-! ## The grammar -/

theorem toList_intercalate_dot (l : List String) : (".".intercalate l).toList = dotted l :=
  String.toList_intercalate

theorem matchesTopic_iff_mem {i : TopicInterpreter} {route : ModelDispatchRoute}
    (henabled : route.enabled = true)
    (hpattern : route.topicPattern = ".".intercalate ps) (htopic : ∀ s ∈ topic, IsSegment s) :
    route.matchesTopic i (".".intercalate topic) = true ↔ dotted topic ∈
      (topicPieces i (dotted (ps.map placed)).length (dotted (ps.map placed))).language := by
  have hplaced : (replaceText "**" doubleStar route.topicPattern).toList
      = dotted (ps.map placed) := by
    rw [hpattern, replaceText, String.toList_ofList, toList_intercalate_dot]
    exact replaceScan_dotted (by decide) (by decide)
      (by rw [← toList_intercalate_dot, String.length_toList])
  have hregex : route.matchesTopic i (".".intercalate topic)
      = (route.compiledPattern i).accepts (".".intercalate topic) := by
    simp [ModelDispatchRoute.matchesTopic, henabled]
  rw [hregex, ModelDispatchRoute.compiledPattern, ← String.length_toList, hplaced,
    accepts_anchored_iff (plain_topicPieces _ _), toList_intercalate_dot]
  -- otherwise the text of the pattern would be evaluated
  generalize dotted (ps.map placed) = pattern
  refine ⟨?_, fun h => ⟨_, h, Or.inl rfl⟩⟩
  rintro ⟨w, hw, rfl | hline⟩
  · exact hw
  · have hmem : '\n' ∈ dotted topic := by
      rw [hline]
      exact List.mem_append_right w List.mem_cons_self
    exact absurd (mem_dotted htopic hmem).1 (by decide)

/-- A pattern of literals, `*` and `**` matches as its grammar says, unless one of its literals has
the placeholder in it. -/
theorem matchesTopic_iff_aligned (i : TopicInterpreter) (route : ModelDispatchRoute)
    (henabled : route.enabled = true) (ps : List String)
    (hpattern : route.topicPattern = ".".intercalate ps) (hps : ∀ p ∈ ps, IsPatternSegment p) :
    (∀ topic, topic ≠ [] → (∀ s ∈ topic, IsSegment s) →
      (route.matchesTopic i (".".intercalate topic) = true ↔ Aligned ps topic)) ↔
      ∀ p ∈ ps, ¬ doubleStar.toList <:+: p.toList := by
  have hne : ps ≠ [] := by
    rintro rfl
    have hlength := route.topicPattern_length.1
    rw [hpattern] at hlength
    exact absurd hlength (by decide)
  constructor
  · intro h p hp hbad
    have hplaced : ∀ s ∈ ps.map placed, IsSegment s := by
      intro s hs
      rcases List.mem_map.mp hs with ⟨p, hp, rfl⟩
      exact isSegment_replaceText ⟨by decide, by decide⟩ (hps p hp).isSegment
    have hsegments : ∀ s ∈ ps.map sample, IsSegment s := by
      intro s hs
      rcases List.mem_map.mp hs with ⟨p, hp, rfl⟩
      exact isSegment_replaceText ⟨by decide, by decide⟩ (hplaced _ (List.mem_map_of_mem hp))
    have hascii : ∀ c ∈ dotted (ps.map placed), c.toNat < 128 := by
      intro c hc
      have hprintable := (mem_dotted hplaced hc).2
      omega
    refine not_aligned_sample hps hp hbad ((h (ps.map sample) (by simpa using hne) hsegments).mp ?_)
    have hsample : ps.map sample = (ps.map placed).map (replaceText doubleStar "x") := by
      simp [sample]
    rw [matchesTopic_iff_mem henabled hpattern hsegments, hsample,
      ← replaceScan_dotted (by decide) (by decide) le_rfl]
    exact mem_topicPieces_sample hascii le_rfl le_rfl
  · intro hclean topic htopic hsegments
    rw [matchesTopic_iff_mem henabled hpattern hsegments]
    exact mem_language_dotted hps hclean hne htopic hsegments le_rfl

def patternRoute (pattern : String) (hlength : 1 ≤ pattern.length ∧ pattern.length ≤ 500)
    (hvalid : strip pattern ≠ "" ∧ startsWith "." pattern = false ∧
      endsWith "." pattern = false) : ModelDispatchRoute where
  routeId := "route"
  topicPattern := pattern
  messageCategory := .event
  messageType := some "UserCreated"
  handlerId := "handler"
  routeId_length := by decide
  topicPattern_length := hlength
  topicPattern_valid := hvalid
  messageType_length := by decide
  handlerId_length := by decide

theorem matchesTopic_iff_aligned_events :
    (patternRoute "**.events" (by decide) (by decide)).matchesTopic asciiTopics
        (".".intercalate ["dev", "user", "Events"]) = true ↔
      Aligned ["**", "events"] ["dev", "user", "Events"] := by
  refine (matchesTopic_iff_aligned asciiTopics (patternRoute "**.events" (by decide) (by decide))
    rfl ["**", "events"] rfl ?_).mpr (by decide) _ (by simp) ?_
  · simp [IsPatternSegment, IsSegment]
  · simp [IsSegment]

theorem placeholder_not_aligned :
    (patternRoute "a__DOUBLE_STAR__" (by decide) (by decide)).matchesTopic asciiTopics "ax" = true ∧
      IsPatternSegment "a__DOUBLE_STAR__" ∧ IsSegment "ax" ∧
      ¬ Aligned ["a__DOUBLE_STAR__"] ["ax"] := by
  have hliteral : IsPatternSegment "a__DOUBLE_STAR__" :=
    Or.inr (Or.inr ⟨⟨by decide, by decide⟩, by decide⟩)
  have hsample : ["a__DOUBLE_STAR__"].map sample = ["ax"] := by decide
  refine ⟨by decide +kernel, hliteral, ⟨by decide, by decide⟩, ?_⟩
  rw [← hsample]
  exact not_aligned_sample (List.forall_mem_singleton.mpr hliteral) List.mem_cons_self
    ⟨['a'], [], rfl⟩

end OmnibaseCore.Dispatch
