import Mathlib.Data.List.TakeWhile
import Mathlib.Tactic

/-!
# Text

`str.split` and `str.strip`, on lists of characters. `words` is `split()`, which splits at
runs of whitespace; `splitAt c` is `split(c)`, which splits at every occurrence. What depends on
the tables of Unicode is an argument, `TextInterpreter`.
-/

namespace OmnibaseCore

-- A quantifier over the characters of a text is decided by looking at these characters. There
-- is an instance that goes through all of Unicode, which must not be taken for it.
instance decidableForallMemList (P : Char → Prop) [DecidablePred P] (l : List Char) :
    Decidable (∀ c ∈ l, P c) :=
  List.decidableBAll P l

instance decidableForallMemOption (P : Char → Prop) [DecidablePred P] (o : Option Char) :
    Decidable (∀ c ∈ o, P c) :=
  Option.decidableForallMem o

/-- `c.isspace()`. -/
def isSpace (c : Char) : Bool :=
  let n := c.toNat
  (0x09 ≤ n && n ≤ 0x0d) || (0x1c ≤ n && n ≤ 0x20) || n = 0x85 || n = 0xa0 || n = 0x1680 ||
    (0x2000 ≤ n && n ≤ 0x200a) || n = 0x2028 || n = 0x2029 || n = 0x202f || n = 0x205f ||
    n = 0x3000

/-- The pieces between separators. The first argument is the piece read so far. -/
def pieces (isSep : Char → Bool) : List Char → List Char → List (List Char)
  | piece, [] => [piece]
  | piece, c :: rest =>
    if isSep c then piece :: pieces isSep [] rest else pieces isSep (piece ++ [c]) rest

/-- `s.split()`. -/
def words (s : String) : List String :=
  ((pieces isSpace [] s.toList).filter fun w => w ≠ []).map String.ofList

/-- `s.split(c)` for a separator of one character. -/
def splitAt (c : Char) (s : String) : List String :=
  (pieces (fun d => d = c) [] s.toList).map String.ofList

/-- `s.strip()`. -/
def strip (s : String) : String :=
  String.ofList (((s.toList.dropWhile isSpace).reverse.dropWhile isSpace).reverse)

/-- A character of the Unicode property `White_Space`, which is not quite `c.isspace()`. -/
def isWhiteSpace (c : Char) : Bool :=
  let n := c.toNat
  (0x09 ≤ n && n ≤ 0x0d) || n = 0x20 || n = 0x85 || n = 0xa0 || n = 0x1680 ||
    (0x2000 ≤ n && n ≤ 0x200a) || n = 0x2028 || n = 0x2029 || n = 0x202f || n = 0x205f ||
    n = 0x3000

/-- A field of a model with `str_strip_whitespace`. -/
def trim (s : String) : String :=
  String.ofList (((s.toList.dropWhile isWhiteSpace).reverse.dropWhile isWhiteSpace).reverse)

/-- `s.replace(c, t)` for a text `c` of one character. -/
def replaceChar (c : Char) (t s : String) : String :=
  String.ofList (s.toList.flatMap fun d => if d = c then t.toList else [d])

/-- What the code takes from the interpreter about text: the tables of Unicode, and how errors
are printed. -/
structure TextInterpreter where
  /-- The value of a decimal digit, of any script -/
  decimal : Char → Option ℕ
  /-- The digits of ASCII -/
  decimal_ascii : ∀ c : Char, c.toNat < 128 →
    decimal c = if c.isDigit then some (c.toNat - 48) else none
  /-- `s.lower()` -/
  lower : String → String
  /-- The letters of ASCII -/
  lower_ascii : ∀ s : String, (∀ c ∈ s.toList, c.toNat < 128) →
    lower s = String.ofList (s.toList.map Char.toLower)
  /-- `c.isalpha()` -/
  isAlpha : Char → Bool
  /-- `c.isalnum()` -/
  isAlnum : Char → Bool
  /-- `repr(s)` -/
  repr : String → String
  /-- `str` of the `ValidationError` of a model, given the fields at fault -/
  validationText : String → List String → String

def TextInterpreter.isDecimal (i : TextInterpreter) (c : Char) : Bool := (i.decimal c).isSome

def asciiText : TextInterpreter where
  decimal c := if c.isDigit then some (c.toNat - 48) else none
  decimal_ascii _ _ := rfl
  lower s := String.ofList (s.toList.map Char.toLower)
  lower_ascii _ _ := rfl
  isAlpha := Char.isAlpha
  isAlnum := Char.isAlphanum
  repr s := "'" ++ s ++ "'"
  validationText model fields :=
    toString fields.length ++ " validation error for " ++ model ++ "\n" ++ "\n".intercalate fields

variable {s : String}

theorem TextInterpreter.lower_eq_self (i : TextInterpreter)
    (h : s.toList.all (fun c => decide (c.toNat < 128) && decide (c.toLower = c)) = true) :
    i.lower s = s := by
  have hall : ∀ c ∈ s.toList, c.toNat < 128 ∧ c.toLower = c := by
    intro c hc
    simpa using List.all_eq_true.mp h c hc
  rw [i.lower_ascii s fun c hc => (hall c hc).1, List.map_congr_left fun c hc => (hall c hc).2,
    List.map_id', String.ofList_toList]

/-! ## Words -/

variable {isSep : Char → Bool}

theorem pieces_of_forall_not {l : List Char} (piece : List Char) (h : ∀ c ∈ l, isSep c = false) :
    pieces isSep piece l = [piece ++ l] := by
  induction l generalizing piece with
  | nil => rw [pieces, List.append_nil]
  | cons c l ih =>
    rw [pieces, h c List.mem_cons_self, if_neg Bool.false_ne_true,
      ih (piece ++ [c]) fun d hd => h d (List.mem_cons_of_mem c hd), List.append_assoc,
      List.singleton_append]

theorem pieces_append_cons {l : List Char} (piece : List Char) (h : ∀ c ∈ l, isSep c = false)
    {sep : Char} (hsep : isSep sep = true) (rest : List Char) :
    pieces isSep piece (l ++ sep :: rest) = (piece ++ l) :: pieces isSep [] rest := by
  induction l generalizing piece with
  | nil => rw [List.nil_append, pieces, hsep, if_pos rfl, List.append_nil]
  | cons c l ih =>
    rw [List.cons_append, pieces, h c List.mem_cons_self, if_neg Bool.false_ne_true,
      ih (piece ++ [c]) fun d hd => h d (List.mem_cons_of_mem c hd), List.append_assoc,
      List.singleton_append]

theorem not_sep_of_mem_pieces {l piece : List Char} (hpiece : ∀ c ∈ piece, isSep c = false) :
    ∀ w ∈ pieces isSep piece l, ∀ c ∈ w, isSep c = false := by
  induction l generalizing piece with
  | nil =>
    intro w hw
    rw [pieces, List.mem_singleton] at hw
    rw [hw]
    exact hpiece
  | cons c l ih =>
    intro w hw
    rw [pieces] at hw
    by_cases hc : isSep c = true
    · rw [if_pos hc] at hw
      rcases List.mem_cons.mp hw with rfl | hw
      · exact hpiece
      · exact ih (by simp) w hw
    · rw [if_neg hc] at hw
      apply ih _ w hw
      intro d hd
      rcases List.mem_append.mp hd with hd | hd
      · exact hpiece d hd
      · rw [List.mem_singleton.mp hd]
        exact Bool.not_eq_true _ ▸ hc

theorem mem_of_mem_pieces {l piece w : List Char} (hw : w ∈ pieces isSep piece l) :
    ∀ d ∈ w, d ∈ piece ∨ d ∈ l := by
  induction l generalizing piece with
  | nil =>
    intro d hd
    rw [pieces, List.mem_singleton] at hw
    exact Or.inl (hw ▸ hd)
  | cons c l ih =>
    intro d hd
    rw [pieces] at hw
    split_ifs at hw
    · rcases List.mem_cons.mp hw with rfl | hw
      · exact Or.inl hd
      · rcases ih hw d hd with h | h
        · exact absurd h List.not_mem_nil
        · exact Or.inr (List.mem_cons_of_mem c h)
    · rcases ih hw d hd with h | h
      · rcases List.mem_append.mp h with h | h
        · exact Or.inl h
        · exact Or.inr (List.mem_singleton.mp h ▸ List.mem_cons_self)
      · exact Or.inr (List.mem_cons_of_mem c h)

variable {c : Char}

theorem mem_of_mem_splitAt {s t : String} (ht : t ∈ splitAt c s) :
    ∀ d ∈ t.toList, d ∈ s.toList := by
  unfold splitAt at ht
  rcases List.mem_map.mp ht with ⟨w, hw, rfl⟩
  intro d hd
  rw [String.toList_ofList] at hd
  exact (mem_of_mem_pieces hw d hd).resolve_left List.not_mem_nil

theorem pieces_intercalate {ls : List (List Char)} (hne : ls ≠ []) (hls : ∀ l ∈ ls, c ∉ l) :
    pieces (fun d => d = c) [] ([c].intercalate ls) = ls := by
  have hsep : ∀ l : List Char, c ∉ l → ∀ d ∈ l, (fun d => decide (d = c)) d = false := by
    intro l hl d hd
    rw [decide_eq_false_iff_not]
    exact fun hdc => hl (hdc ▸ hd)
  induction ls with
  | nil => exact absurd rfl hne
  | cons l ls ih =>
    rw [List.forall_mem_cons] at hls
    cases ls with
    | nil =>
      rw [List.intercalate_singleton, pieces_of_forall_not [] (hsep l hls.1), List.nil_append]
    | cons l' ls =>
      rw [List.intercalate_cons_cons, List.append_assoc, List.singleton_append,
        pieces_append_cons [] (hsep l hls.1) (decide_eq_true rfl), List.nil_append,
        ih (List.cons_ne_nil l' ls) hls.2]

theorem of_mem_intercalate {c d : Char} {ls : List (List Char)} (h : d ∈ [c].intercalate ls) :
    d = c ∨ ∃ l ∈ ls, d ∈ l := by
  induction ls with
  | nil => exact absurd h List.not_mem_nil
  | cons l ls ih =>
    cases ls with
    | nil =>
      rw [List.intercalate_singleton] at h
      exact Or.inr ⟨l, List.mem_cons_self, h⟩
    | cons l' ls =>
      rw [List.intercalate_cons_cons, List.append_assoc, List.mem_append] at h
      rcases h with h | h
      · exact Or.inr ⟨l, List.mem_cons_self, h⟩
      · rcases List.mem_append.mp h with h | h
        · exact Or.inl (List.mem_singleton.mp h)
        · rcases ih h with h | ⟨u, hu, hd⟩
          · exact Or.inl h
          · exact Or.inr ⟨u, List.mem_cons_of_mem l hu, hd⟩

theorem splitAt_intercalate {l : List String} (hne : l ≠ []) (hl : ∀ s ∈ l, c ∉ s.toList) :
    splitAt c ((String.ofList [c]).intercalate l) = l := by
  unfold splitAt
  rw [String.toList_intercalate, String.toList_ofList, pieces_intercalate]
  · rw [List.map_map]
    have hid : String.ofList ∘ String.toList = id := by
      ext1 s
      exact String.ofList_toList
    rw [hid, List.map_id]
  · rwa [ne_eq, List.map_eq_nil_iff]
  · intro s hs
    rcases List.mem_map.mp hs with ⟨t, ht, rfl⟩
    exact hl t ht

def IsWord (w : String) : Prop := w.toList ≠ [] ∧ ∀ c ∈ w.toList, isSpace c = false

theorem isWord_of_mem_words {s w : String} (h : w ∈ words s) : IsWord w := by
  unfold words at h
  rcases List.mem_map.mp h with ⟨l, hl, rfl⟩
  rcases List.mem_filter.mp hl with ⟨hl, hne⟩
  unfold IsWord
  rw [String.toList_ofList]
  exact ⟨of_decide_eq_true hne, not_sep_of_mem_pieces (by simp) l hl⟩

theorem words_three {a b c : String} (ha : IsWord a) (hb : IsWord b) (hc : IsWord c) :
    words (a ++ " " ++ b ++ " " ++ c) = [a, b, c] := by
  have hspace : isSpace ' ' = true := by decide
  have hlist : (a ++ " " ++ b ++ " " ++ c).toList
      = a.toList ++ ' ' :: (b.toList ++ ' ' :: c.toList) := by
    simp
  unfold words
  rw [hlist, pieces_append_cons [] ha.2 hspace, pieces_append_cons [] hb.2 hspace,
    pieces_of_forall_not [] hc.2]
  simp [ha.1, hb.1, hc.1]

theorem forall_isSpace_of_strip (h : strip s = "") : ∀ c ∈ s.toList, isSpace c = true := by
  unfold strip at h
  have hlist := congrArg String.toList h
  rw [String.toList_ofList, String.toList_empty, List.reverse_eq_nil_iff,
    List.dropWhile_eq_nil_iff] at hlist
  have hnil : s.toList.dropWhile isSpace = [] := by
    by_contra hne
    have hhead := List.head_dropWhile_not isSpace hne
    rw [hlist _ (List.mem_reverse.mpr (List.head_mem hne))] at hhead
    cases hhead
  exact List.dropWhile_eq_nil_iff.mp hnil

theorem strip_ne_empty (hc : c ∈ s.toList) (hspace : isSpace c = false) : strip s ≠ "" := by
  intro h
  rw [forall_isSpace_of_strip h c hc] at hspace
  cases hspace

theorem length_pos_of_strip (h : strip s ≠ "") : 1 ≤ s.length := by
  apply Nat.one_le_iff_ne_zero.mpr
  intro hzero
  have hempty : s = "" := by simpa using hzero
  rw [hempty] at h
  exact h rfl

theorem words_eq_nil_of_strip (h : strip s = "") : words s = [] := by
  have hall := forall_isSpace_of_strip h
  unfold words
  have hpieces : ∀ l : List Char, (∀ c ∈ l, isSpace c = true) →
      (pieces isSpace [] l).filter (fun w => w ≠ []) = [] := by
    intro l
    induction l with
    | nil => intro _; rfl
    | cons c l ih =>
      intro hl
      rw [pieces, hl c List.mem_cons_self, if_pos rfl, List.filter_cons_of_neg (by simp)]
      exact ih fun d hd => hl d (List.mem_cons_of_mem c hd)
  rw [hpieces _ hall, List.map_nil]

/-! ## Stripped text -/

theorem isSpace_of_isDigit (h : c.isDigit = true) : isSpace c = false := by
  have hrange : 48 ≤ c.toNat ∧ c.toNat ≤ 57 := by
    simp only [Char.isDigit, Bool.and_eq_true, decide_eq_true_eq] at h
    exact ⟨UInt32.le_iff_toNat_le.mp h.1, UInt32.le_iff_toNat_le.mp h.2⟩
  unfold isSpace
  simp only [Bool.or_eq_false_iff, Bool.and_eq_false_iff, decide_eq_false_iff_not]
  omega

theorem strip_eq_self (h : ∀ c ∈ s.toList, isSpace c = false) : strip s = s := by
  have hdrop : ∀ l : List Char, (∀ c ∈ l, isSpace c = false) → l.dropWhile isSpace = l := by
    intro l hl
    cases l with
    | nil => rfl
    | cons c l => rw [List.dropWhile_cons_of_neg (by simp [hl c List.mem_cons_self])]
  unfold strip
  rw [hdrop _ h, hdrop _ fun c hc => h c (List.mem_reverse.mp hc), List.reverse_reverse,
    String.ofList_toList]

/-- A text is trimmed if and only if it neither begins nor ends with a blank. -/
theorem trim_eq_self_iff : trim s = s ↔ (∀ c ∈ s.toList.head?, isWhiteSpace c = false) ∧
      ∀ c ∈ s.toList.getLast?, isWhiteSpace c = false := by
  have hfront : ∀ l : List Char, l.dropWhile isWhiteSpace = l ↔
      ∀ c ∈ l.head?, isWhiteSpace c = false := by
    intro l
    cases l with
    | nil => simp
    | cons c l =>
      by_cases hc : isWhiteSpace c = true
      · rw [List.dropWhile_cons_of_pos hc]
        have hne : l.dropWhile isWhiteSpace ≠ c :: l := by
          intro heq
          have hlen := (List.dropWhile_suffix isWhiteSpace (l := l)).length_le
          rw [heq, List.length_cons] at hlen
          omega
        simp [hne, hc]
      · rw [List.dropWhile_cons_of_neg hc]
        simpa using hc
  have hlist : trim s = s ↔
      ((s.toList.dropWhile isWhiteSpace).reverse.dropWhile isWhiteSpace).reverse = s.toList := by
    unfold trim
    constructor
    · intro h
      have := congrArg String.toList h
      rwa [String.toList_ofList] at this
    · intro h
      rw [h, String.ofList_toList]
  rw [hlist, ← hfront, ← List.head?_reverse, ← hfront]
  constructor
  · intro h
    -- nothing is dropped at either end, because the lengths are the same
    have h₁ := (List.dropWhile_suffix isWhiteSpace (l := s.toList)).length_le
    have h₂ := (List.dropWhile_suffix isWhiteSpace
      (l := (s.toList.dropWhile isWhiteSpace).reverse)).length_le
    have hlen := congrArg List.length h
    rw [List.length_reverse] at hlen h₂
    have hdrop : s.toList.dropWhile isWhiteSpace = s.toList :=
      (List.dropWhile_suffix isWhiteSpace).eq_of_length (by omega)
    rw [hdrop] at h ⊢
    exact ⟨rfl, by rw [← List.reverse_inj, h, List.reverse_reverse]⟩
  · rintro ⟨hdrop, hreverse⟩
    rw [hdrop, hreverse, List.reverse_reverse]

@[simp] theorem trim_trim (s : String) : trim (trim s) = trim s := by
  have hlist : (trim s).toList
      = ((s.toList.dropWhile isWhiteSpace).reverse.dropWhile isWhiteSpace).reverse := by
    unfold trim
    rw [String.toList_ofList]
  rw [trim_eq_self_iff, hlist]
  have hhead : ∀ (l : List Char), ∀ c ∈ (l.dropWhile isWhiteSpace).head?,
      isWhiteSpace c = false := by
    intro l c hc
    have hne : l.dropWhile isWhiteSpace ≠ [] := by
      rintro hnil
      simp [hnil] at hc
    have hnot := List.head_dropWhile_not isWhiteSpace hne
    rw [List.head?_eq_some_head hne, Option.mem_some_iff] at hc
    rwa [hc] at hnot
  constructor
  · intro c hc
    -- the front is that of the text whose end has been dropped
    have hprefix : ((s.toList.dropWhile isWhiteSpace).reverse.dropWhile isWhiteSpace).reverse
        <+: s.toList.dropWhile isWhiteSpace := by
      rw [← List.reverse_suffix, List.reverse_reverse]
      exact List.dropWhile_suffix _
    rcases hprefix with ⟨rest, hrest⟩
    apply hhead s.toList c
    rw [← hrest]
    cases hl : ((s.toList.dropWhile isWhiteSpace).reverse.dropWhile isWhiteSpace).reverse with
    | nil => simp [hl] at hc
    | cons d l => simpa [hl] using hc
  · intro c hc
    rw [List.getLast?_reverse] at hc
    exact hhead _ c hc

example : words "  count  > 5 " = ["count", ">", "5"] := by decide +kernel

end OmnibaseCore
