import OmnibaseCore.SemVer.Grammar

/-!
# Printing and parsing versions

A version whose identifiers are free of line feeds, and whose numbers can be printed at all, is
parsed back from its text, and no other is (`roundTrips_iff`). The patterns of the constructor end
in `$`, which lets a line feed at the end of an identifier through; the parser does not give
it back.
-/

namespace OmnibaseCore.SemVer

open Regex

variable {i : TextInterpreter}

/-! ## Versions that the validators accept -/

/-- What `normalizeIdentifier` returns. -/
def Identifier.WellFormed (i : TextInterpreter) : Identifier → Prop
  | .int n => 0 ≤ n
  | .str s => prereleaseAlphanumericPattern.accepts s = true ∧
      (numericWithLeadingZerosPattern i).accepts s = false ∧
      (prereleaseNumericPattern i).accepts s = false

structure ModelSemVer.WellFormed (i : TextInterpreter) (v : ModelSemVer) : Prop where
  major : 0 ≤ v.major
  minor : 0 ≤ v.minor
  patch : 0 ≤ v.patch
  prerelease : ∀ l ∈ v.prerelease, l ≠ [] ∧ ∀ p ∈ l, p.WellFormed i
  build : ∀ l ∈ v.build, l ≠ [] ∧ ∀ s ∈ l, buildIdentifierPattern.accepts s = true

variable {s : String} {n : ℤ}

theorem intOfDigits_nonneg (h : intOfDigits i s = .ok n) : 0 ≤ n := by
  unfold intOfDigits at h
  dsimp only at h
  split_ifs at h
  cases h
  exact Int.natCast_nonneg _

theorem normalizeIdentifier_wellFormed {p q : Identifier}
    (h : normalizeIdentifier i p = .ok q) : q.WellFormed i := by
  cases p with
  | int n =>
    unfold normalizeIdentifier at h
    dsimp only at h
    split_ifs at h with hn
    cases h
    exact Int.not_lt.mp hn
  | str s =>
    unfold normalizeIdentifier at h
    dsimp only at h
    split_ifs at h with hchars hzeros hnumeric
    · rcases map_eq_ok h with ⟨n, hn, rfl⟩
      exact intOfDigits_nonneg hn
    · cases h
      exact ⟨by simpa using hchars, by simpa using hzeros, by simpa using hnumeric⟩

variable {p : Identifier}

theorem normalizeIdentifier_eq_self (h : p.WellFormed i) :
    normalizeIdentifier i p = .ok p := by
  cases p with
  | int n =>
    exact if_neg (Int.not_lt.mpr h)
  | str s =>
    unfold normalizeIdentifier
    dsimp only
    rw [h.1, h.2.1, h.2.2]
    rfl

theorem wellFormed_of_validatePrerelease {o o' : Option (List Identifier)}
    (h : validatePrerelease i o = .ok o') : ∀ l ∈ o', l ≠ [] ∧ ∀ p ∈ l, p.WellFormed i := by
  rcases o with _ | _ | ⟨p, l⟩
  · cases h
    exact fun _ h => (nomatch h)
  · cases h
    exact fun _ h => (nomatch h)
  · rcases map_eq_ok h with ⟨ps, hps, rfl⟩
    rintro _ ⟨rfl⟩
    refine ⟨?_, forall_of_mapM_ok (fun _ _ => normalizeIdentifier_wellFormed) hps⟩
    rintro rfl
    rw [List.mapM_cons] at hps
    rcases bind_eq_ok hps with ⟨q, -, hps⟩
    rcases bind_eq_ok hps with ⟨qs, -, hps⟩
    cases hps

theorem validatePrerelease_eq_self {o : Option (List Identifier)}
    (h : ∀ l ∈ o, l ≠ [] ∧ ∀ p ∈ l, p.WellFormed i) : validatePrerelease i o = .ok o := by
  rcases o with _ | _ | ⟨p, l⟩
  · rfl
  · exact absurd rfl (h [] rfl).1
  · have hself : (p :: l).mapM (normalizeIdentifier i) = .ok ((p :: l).map id) :=
      mapM_eq_ok_map fun q hq => normalizeIdentifier_eq_self ((h _ rfl).2 q hq)
    rw [List.map_id] at hself
    exact congrArg (Except.map some) hself

theorem wellFormed_of_validateBuild {o o' : Option (List String)}
    (h : validateBuild o = .ok o') :
    ∀ l ∈ o', l ≠ [] ∧ ∀ s ∈ l, buildIdentifierPattern.accepts s = true := by
  rcases o with _ | _ | ⟨s, l⟩
  · cases h
    exact fun _ h => (nomatch h)
  · cases h
    exact fun _ h => (nomatch h)
  · unfold validateBuild at h
    dsimp only at h
    split at h
    · cases h
    · rename_i hfind
      cases h
      rintro _ ⟨rfl⟩
      exact ⟨List.cons_ne_nil s l, by simpa using hfind⟩

theorem validateBuild_eq_self {o : Option (List String)}
    (h : ∀ l ∈ o, l ≠ [] ∧ ∀ s ∈ l, buildIdentifierPattern.accepts s = true) :
    validateBuild o = .ok o := by
  rcases o with _ | _ | ⟨s, l⟩
  · rfl
  · exact absurd rfl (h [] rfl).1
  · have hfind : ((s :: l).find? fun identifier => !buildIdentifierPattern.accepts identifier)
        = none := by
      rw [List.find?_eq_none]
      intro t ht
      simp [(h _ rfl).2 t ht]
    unfold validateBuild
    dsimp only
    rw [hfind]

theorem negative_eq_nil_iff {numbers : List (String × ℤ)} :
    (numbers.filter fun field => field.2 < 0).map Prod.fst = [] ↔
      ∀ field ∈ numbers, 0 ≤ field.2 := by
  rw [List.map_eq_nil_iff, List.filter_eq_nil_iff]
  apply forall₂_congr
  intro field _
  rw [decide_eq_true_eq, Int.not_lt]

section
variable {major minor patch : ℤ} {prerelease : Option (List Identifier)}
  {build : Option (List String)}

theorem of_modelValidate {v : ModelSemVer}
    (h : ModelSemVer.modelValidate i major minor patch prerelease build = .ok v) :
    v.WellFormed i ∧ validatePrerelease i prerelease = .ok v.prerelease ∧
      validateBuild build = .ok v.build := by
  unfold ModelSemVer.modelValidate at h
  dsimp only at h
  rcases hp : validatePrerelease i prerelease with e | p
  · rw [hp] at h
    cases e <;> cases hb : validateBuild build <;> rw [hb] at h <;> cases h
  · rcases hb : validateBuild build with e | b
    · rw [hp, hb] at h
      cases h
    · rw [hp, hb] at h
      dsimp only at h
      split_ifs at h with hnegative
      cases h
      rw [not_not, negative_eq_nil_iff] at hnegative
      refine ⟨⟨?_, ?_, ?_, ?_, ?_⟩, rfl, rfl⟩
      · exact hnegative ("major", major) (by simp)
      · exact hnegative ("minor", minor) (by simp)
      · exact hnegative ("patch", patch) (by simp)
      · exact wellFormed_of_validatePrerelease hp
      · exact wellFormed_of_validateBuild hb

theorem modelValidate_eq_self {v : ModelSemVer} (h : v.WellFormed i) :
    ModelSemVer.modelValidate i v.major v.minor v.patch v.prerelease v.build = .ok v := by
  unfold ModelSemVer.modelValidate
  dsimp only
  rw [validatePrerelease_eq_self h.prerelease, validateBuild_eq_self h.build]
  dsimp only
  rw [if_neg]
  rw [not_not, negative_eq_nil_iff]
  simp [h.major, h.minor, h.patch]

end

/-! ## The text of a version -/

/-- The number can be printed. -/
def IsShort (n : ℤ) : Prop := (toString n.natAbs).length ≤ intMaxStrDigits

def Identifier.Readable : Identifier → Prop
  | .int n => IsShort n
  | .str s => '\n' ∉ s.toList

/-- No number is too long to be printed, and no identifier has a line feed in it. -/
structure ModelSemVer.Readable (v : ModelSemVer) : Prop where
  major : IsShort v.major
  minor : IsShort v.minor
  patch : IsShort v.patch
  prerelease : ∀ l ∈ v.prerelease, ∀ p ∈ l, p.Readable
  build : ∀ l ∈ v.build, ∀ s ∈ l, '\n' ∉ s.toList

def Identifier.IsShort : Identifier → Prop
  | .int n => SemVer.IsShort n
  | .str _ => True

structure ModelSemVer.IsShort (v : ModelSemVer) : Prop where
  major : SemVer.IsShort v.major
  minor : SemVer.IsShort v.minor
  patch : SemVer.IsShort v.patch
  prerelease : ∀ l ∈ v.prerelease, ∀ p ∈ l, p.IsShort

def Identifier.text : Identifier → String
  | .int n => toString n
  | .str s => s

def ModelSemVer.parts (v : ModelSemVer) : SemverParts where
  major := (toString v.major).toList
  minor := (toString v.minor).toList
  patch := (toString v.patch).toList
  prerelease := v.prerelease.map fun l => (".".intercalate (l.map Identifier.text)).toList
  build := v.build.map fun l => (".".intercalate l).toList

variable {t : String}

theorem intStr_eq_ok_iff : intStr n = .ok t ↔ IsShort n ∧ t = toString n := by
  unfold intStr IsShort
  split_ifs with h
  · constructor
    · exact fun h => nomatch h
    · exact fun hshort => absurd h (Nat.not_lt.mpr hshort.1)
  · rw [Except.ok.injEq, eq_comm]
    exact ⟨fun heq => ⟨Nat.not_lt.mp h, heq⟩, fun hshort => hshort.2⟩

theorem Identifier.pyStr_eq_ok_iff : p.pyStr = .ok t ↔ p.IsShort ∧ t = p.text := by
  cases p with
  | int n => exact intStr_eq_ok_iff
  | str s =>
    unfold Identifier.pyStr Identifier.IsShort Identifier.text
    rw [Except.ok.injEq, eq_comm, true_and]

variable {l : List Identifier}

theorem mapM_pyStr_eq_ok_iff {texts : List String} :
    l.mapM Identifier.pyStr = .ok texts ↔
      (∀ p ∈ l, p.IsShort) ∧ texts = l.map Identifier.text :=
  mapM_eq_ok_iff fun _ _ => Identifier.pyStr_eq_ok_iff

theorem isShort_of_pyStr {v : ModelSemVer} (h : v.pyStr = .ok t) : v.IsShort := by
  obtain ⟨major, minor, patch, prerelease, build⟩ := v
  unfold ModelSemVer.pyStr at h
  dsimp only at h
  rcases bind_eq_ok h with ⟨majorText, hmajor, h⟩
  rcases bind_eq_ok h with ⟨minorText, hminor, h⟩
  rcases bind_eq_ok h with ⟨patchText, hpatch, h⟩
  refine ⟨(intStr_eq_ok_iff.mp hmajor).1, (intStr_eq_ok_iff.mp hminor).1,
    (intStr_eq_ok_iff.mp hpatch).1, ?_⟩
  rcases prerelease with _ | _ | ⟨p, l⟩
  · exact fun _ h => (nomatch h)
  · rintro _ ⟨rfl⟩ _ h
    exact nomatch h
  · rcases bind_eq_ok h with ⟨texts, htexts, -⟩
    rintro _ ⟨rfl⟩
    exact (mapM_pyStr_eq_ok_iff.mp htexts).1

theorem ok_eq_ok_ofList {l : List Char} (h : s.toList = l) :
    (Except.ok s : Except PyException String) = .ok (String.ofList l) := by
  rw [← h, String.ofList_toList]

theorem pyStr_eq {v : ModelSemVer} (h : v.WellFormed i) (hshort : v.IsShort) :
    v.pyStr = .ok (String.ofList v.parts.text) := by
  obtain ⟨major, minor, patch, prerelease, build⟩ := v
  unfold ModelSemVer.pyStr
  dsimp only
  rw [intStr_eq_ok_iff.mpr ⟨hshort.major, rfl⟩, intStr_eq_ok_iff.mpr ⟨hshort.minor, rfl⟩,
    intStr_eq_ok_iff.mpr ⟨hshort.patch, rfl⟩]
  have hbuild : build ≠ some [] := fun hnil => (h.build [] hnil).1 rfl
  have hprerelease : prerelease ≠ some [] := fun hnil => (h.prerelease [] hnil).1 rfl
  rcases prerelease with _ | _ | ⟨p, l⟩
  · rcases build with _ | _ | ⟨s, m⟩
    · apply ok_eq_ok_ofList
      simp [ModelSemVer.parts, SemverParts.text, sectionText]
    · exact absurd rfl hbuild
    · apply ok_eq_ok_ofList
      simp [ModelSemVer.parts, SemverParts.text, sectionText]
  · exact absurd rfl hprerelease
  · dsimp only
    rw [mapM_pyStr_eq_ok_iff.mpr ⟨hshort.prerelease _ rfl, rfl⟩]
    rcases build with _ | _ | ⟨s, m⟩
    · apply ok_eq_ok_ofList
      simp [ModelSemVer.parts, SemverParts.text, sectionText]
    · exact absurd rfl hbuild
    · apply ok_eq_ok_ofList
      simp [ModelSemVer.parts, SemverParts.text, sectionText]

/-! ## The identifiers of a version and the pattern -/

theorem toList_toString (h : 0 ≤ n) : (toString n).toList = Nat.toDigits 10 n.toNat := by
  obtain ⟨k, rfl⟩ := Int.eq_ofNat_of_zero_le h
  show (Nat.repr k).toList = Nat.toDigits 10 (k : ℤ).toNat
  rw [Nat.toList_repr, Int.toNat_natCast]

theorem toList_toString_mem (h : 0 ≤ n) : (toString n).toList ∈ (numericRegex i).language := by
  rw [toList_toString h]
  exact toDigits_mem_numericRegex n.toNat

theorem intOfDigits_toString (h : 0 ≤ n) (hshort : IsShort n) :
    intOfDigits i (toString n) = .ok n := by
  obtain ⟨k, rfl⟩ := Int.eq_ofNat_of_zero_le h
  have hlength : (Nat.toDigits 10 k).length ≤ intMaxStrDigits := by
    rw [← Nat.toList_repr]
    exact hshort
  have htext : toString (k : ℤ) = String.ofList (Nat.toDigits 10 k) := Nat.repr_eq_ofList_toDigits
  rw [htext]
  exact intOfDigits_toDigits i hlength

theorem accepts_anchored_iff_mem {r : Regex} (hr : r.Plain) (hs : '\n' ∉ s.toList) :
    (Regex.seq start (.seq r finish)).accepts s = true ↔ s.toList ∈ r.language := by
  rw [accepts_anchored_iff hr]
  constructor
  · rintro ⟨w, hw, h | h⟩
    · rwa [h]
    · rw [h] at hs
      exact absurd (List.mem_append_right w (List.mem_singleton.mpr rfl)) hs
  · exact fun h => ⟨s.toList, h, Or.inl rfl⟩

theorem accepts_leadingZeros_iff (hs : '\n' ∉ s.toList) :
    (numericWithLeadingZerosPattern i).accepts s = true ↔
      ∃ ds, ds ≠ [] ∧ (∀ d ∈ ds, i.isDecimal d = true) ∧ s.toList = '0' :: ds := by
  have hplain : (Regex.seq (.char '0') (.plus (.chars i.isDecimal))).Plain :=
    ⟨trivial, trivial, trivial⟩
  rw [show (numericWithLeadingZerosPattern i).accepts s = (Regex.seq start (.seq
    (.seq (.char '0') (.plus (.chars i.isDecimal))) finish)).accepts s from rfl,
    accepts_anchored_iff_mem hplain hs, mem_language_seq]
  constructor
  · rintro ⟨u, hu, ds, hds, h⟩
    rw [mem_language_plus_chars] at hds
    rw [mem_language_char.mp hu] at h
    exact ⟨ds, hds.1, hds.2, h.symm⟩
  · rintro ⟨ds, hne, hds, h⟩
    exact ⟨['0'], mem_language_char.mpr rfl, ds, mem_language_plus_chars.mpr ⟨hne, hds⟩, h.symm⟩

theorem mem_prereleaseIdentifierRegex (h : (Identifier.str s).WellFormed i) (hs : '\n' ∉ s.toList) :
    s.toList ∈ (prereleaseIdentifierRegex i).language := by
  rcases h with ⟨hchars, hzeros, hnumeric⟩
  rw [show prereleaseAlphanumericPattern = .seq start (.seq identifierRegex finish) from rfl,
    accepts_anchored_iff_mem plain_identifierRegex hs, mem_language_identifierRegex] at hchars
  rcases hchars with ⟨hne, hchars⟩
  rw [← Bool.not_eq_true, accepts_leadingZeros_iff hs] at hzeros
  rw [← Bool.not_eq_true,
    show prereleaseNumericPattern i = .seq start (.seq (numericRegex i) finish) from rfl,
    accepts_anchored_iff_mem plain_numericRegex hs, mem_language_numericRegex] at hnumeric
  rw [mem_language_prereleaseIdentifierRegex]
  refine Or.inr ?_
  have hsplit := List.takeWhile_append_dropWhile (p := Char.isDigit) (l := s.toList)
  have hdigits : ∀ d ∈ s.toList.takeWhile Char.isDigit, i.isDecimal d = true :=
    fun d hd => isDecimal_of_isDigit i (List.mem_takeWhile_imp hd)
  cases hrest : s.toList.dropWhile Char.isDigit with
  | nil =>
    -- all are digits, and the first is zero or not
    exfalso
    rw [hrest, List.append_nil] at hsplit
    rw [hsplit] at hdigits
    cases htext : s.toList with
    | nil => exact hne htext
    | cons c ds =>
      rw [htext, List.forall_mem_cons] at hdigits
      by_cases hzero : c = '0'
      · rw [hzero] at htext
        by_cases hds : ds = []
        · rw [hds] at htext
          exact hnumeric (Or.inl htext)
        · exact hzeros ⟨ds, hds, hdigits.2, htext⟩
      · refine hnumeric (Or.inr ⟨c, ds, ?_, hdigits.2, htext⟩)
        have hc : c ∈ s.toList.takeWhile Char.isDigit := by
          rw [hsplit, htext]
          exact List.mem_cons_self
        unfold isNonzeroDigit
        rw [List.mem_takeWhile_imp hc, decide_eq_true hzero, Bool.and_true]
  | cons c cs =>
    rw [hrest] at hsplit
    have htext : ∀ d ∈ c :: cs, isIdentifierChar d = true := by
      intro d hd
      apply hchars
      rw [← hsplit]
      exact List.mem_append_right _ hd
    rw [List.forall_mem_cons] at htext
    refine ⟨_, c, cs, hdigits, ?_, htext.2, hsplit.symm⟩
    have hc : c.isDigit = false := by
      have hhead := List.head_dropWhile_not Char.isDigit (l := s.toList) (by simp [hrest])
      simpa [hrest] using hhead
    rcases isIdentifierChar_iff.mp htext.1 with h | h
    · rw [hc] at h
      cases h
    · exact h

theorem not_lineFeed_of_isDecimal {w : List Char} (h : ∀ c ∈ w, i.isDecimal c = true) :
    '\n' ∉ w := by
  intro hmem
  have hfalse := not_isDecimal_of_mem i (c := '\n') (by decide)
  rw [h _ hmem] at hfalse
  cases hfalse

section
variable (h : p.WellFormed i) (hreadable : p.Readable)
include h hreadable

theorem text_mem_prereleaseIdentifierRegex :
    p.text.toList ∈ (prereleaseIdentifierRegex i).language := by
  cases p with
  | int n => exact mem_language_prereleaseIdentifierRegex.mpr (Or.inl (toList_toString_mem h))
  | str s => exact mem_prereleaseIdentifierRegex h hreadable

theorem parsePrereleaseIdentifier_text : parsePrereleaseIdentifier i p.text = .ok p := by
  cases p with
  | int n =>
    have hmem : (toString n).toList ∈ (numericRegex i).language := toList_toString_mem h
    have hline := not_lineFeed_of_isDecimal (isDecimal_of_mem_numericRegex hmem)
    have hnumeric : (prereleaseNumericPattern i).accepts (toString n) = true :=
      (accepts_anchored_iff_mem plain_numericRegex hline).mpr hmem
    have hzeros : (numericWithLeadingZerosPattern i).accepts (toString n) = false := by
      rw [← Bool.not_eq_true, accepts_leadingZeros_iff hline]
      rintro ⟨ds, hne, -, htext⟩
      rw [htext] at hmem
      rcases mem_language_numericRegex.mp hmem with hzero | ⟨c, cs, hc, -, hcons⟩
      · exact hne (List.tail_eq_of_cons_eq hzero)
      · rw [← List.head_eq_of_cons_eq hcons] at hc
        exact absurd hc (by decide)
    show parsePrereleaseIdentifier i (toString n) = .ok (.int n)
    unfold parsePrereleaseIdentifier
    rw [hzeros, hnumeric, if_neg Bool.false_ne_true, if_pos rfl,
      intOfDigits_toString h hreadable]
    rfl
  | str s =>
    show parsePrereleaseIdentifier i s = .ok (.str s)
    unfold parsePrereleaseIdentifier
    rw [h.2.1, h.2.2, if_neg Bool.false_ne_true, if_neg Bool.false_ne_true]

end

/-! ## The round trip -/

def RoundTrips (i : TextInterpreter) (v : ModelSemVer) : Prop :=
  ∃ text v', v.pyStr = .ok text ∧ parseSemverFromString i text = .ok v' ∧
    v'.exactKey = v.exactKey

theorem ModelSemVer.Readable.isShort {v : ModelSemVer} (h : v.Readable) : v.IsShort where
  major := h.major
  minor := h.minor
  patch := h.patch
  prerelease := by
    intro l hl p hp
    have hread := h.prerelease l hl p hp
    cases p with
    | int n => exact hread
    | str s => trivial

theorem toList_dotJoin (l : List String) :
    (".".intercalate l).toList = ['.'].intercalate (l.map String.toList) :=
  String.toList_intercalate

section
variable {v : ModelSemVer} (h : v.WellFormed i) (hreadable : v.Readable)
include h hreadable

theorem valid_parts : v.parts.Valid i where
  major := toList_toString_mem h.major
  minor := toList_toString_mem h.minor
  patch := toList_toString_mem h.patch
  prerelease := by
    intro w hw
    rcases Option.mem_map.mp hw with ⟨l, hl, rfl⟩
    refine mem_language_dotted.mpr ⟨(l.map Identifier.text).map String.toList, ?_, ?_,
      toList_dotJoin _⟩
    · rw [ne_eq, List.map_eq_nil_iff, List.map_eq_nil_iff]
      exact (h.prerelease l hl).1
    · intro u hu
      rcases List.mem_map.mp hu with ⟨t, ht, rfl⟩
      rcases List.mem_map.mp ht with ⟨p, hp, rfl⟩
      exact text_mem_prereleaseIdentifierRegex ((h.prerelease l hl).2 p hp)
        (hreadable.prerelease l hl p hp)
  build := by
    intro w hw
    rcases Option.mem_map.mp hw with ⟨l, hl, rfl⟩
    refine mem_language_dotted.mpr ⟨l.map String.toList, ?_, ?_, toList_dotJoin l⟩
    · rw [ne_eq, List.map_eq_nil_iff]
      exact (h.build l hl).1
    · intro u hu
      rcases List.mem_map.mp hu with ⟨s, hs, rfl⟩
      exact (accepts_anchored_iff_mem plain_identifierRegex (hreadable.build l hl s hs)).mp
        ((h.build l hl).2 s hs)

theorem splitAt_prerelease (hl : l ∈ v.prerelease) :
    splitAt '.' (".".intercalate (l.map Identifier.text)) = l.map Identifier.text := by
  apply splitAt_intercalate
  · rw [ne_eq, List.map_eq_nil_iff]
    exact (h.prerelease l hl).1
  · intro t ht hdot
    rcases List.mem_map.mp ht with ⟨p, hp, rfl⟩
    have hchars := isDecimal_or_isIdentifierChar_of_mem (text_mem_prereleaseIdentifierRegex
      ((h.prerelease l hl).2 p hp) (hreadable.prerelease l hl p hp)) '.' hdot
    rw [not_isDecimal_of_mem i (by decide)] at hchars
    exact absurd hchars (by decide)

theorem splitAt_build {l : List String} (hl : l ∈ v.build) :
    splitAt '.' (".".intercalate l) = l := by
  apply splitAt_intercalate (h.build l hl).1
  intro s hs hdot
  have hmem := (accepts_anchored_iff_mem plain_identifierRegex (hreadable.build l hl s hs)).mp
    ((h.build l hl).2 s hs)
  exact absurd ((mem_language_identifierRegex.mp hmem).2 '.' hdot) (by decide)

theorem parsedPrerelease_text :
    parsedPrerelease i (v.parts.prerelease.map String.ofList) = .ok v.prerelease := by
  have hvalid := (valid_parts h hreadable).prerelease
  have hparse : ∀ l ∈ v.prerelease,
      (l.map Identifier.text).mapM (parsePrereleaseIdentifier i) = .ok l := by
    intro l hl
    rw [List.mapM_map]
    have hself := mapM_eq_ok_map (f := parsePrereleaseIdentifier i ∘ Identifier.text) (g := id)
      fun p hp => parsePrereleaseIdentifier_text ((h.prerelease l hl).2 p hp)
        (hreadable.prerelease l hl p hp)
    rwa [List.map_id] at hself
  have hsplit := fun l hl => splitAt_prerelease h hreadable (l := l) hl
  unfold ModelSemVer.parts at hvalid ⊢
  dsimp only at hvalid ⊢
  cases hv : v.prerelease with
  | none => rfl
  | some l =>
    rw [hv] at hvalid hparse hsplit
    have hne := ne_nil_of_mem_dotted (fun _ => ne_nil_of_mem_prereleaseIdentifierRegex)
      (hvalid _ rfl)
    unfold parsedPrerelease
    rw [Option.map_some, Option.map_some, Option.getD_some, String.ofList_toList, if_neg,
      hsplit l rfl, hparse l rfl]
    · rfl
    · rwa [← String.toList_eq_nil_iff]

theorem parsedBuild_text : parsedBuild (v.parts.build.map String.ofList) = v.build := by
  have hvalid := (valid_parts h hreadable).build
  have hsplit := fun l hl => splitAt_build h hreadable (l := l) hl
  unfold ModelSemVer.parts at hvalid ⊢
  dsimp only at hvalid ⊢
  cases hv : v.build with
  | none => rfl
  | some l =>
    rw [hv] at hvalid hsplit
    have hne := ne_nil_of_mem_dotted (fun u hu => (mem_language_identifierRegex.mp hu).1)
      (hvalid _ rfl)
    unfold parsedBuild
    rw [Option.map_some, Option.map_some, Option.getD_some, String.ofList_toList, if_neg,
      hsplit l rfl]
    rwa [← String.toList_eq_nil_iff]

theorem parseSemverFromString_text :
    parseSemverFromString i (String.ofList v.parts.text) = .ok v := by
  have hnumber : ∀ n : ℤ, 0 ≤ n → IsShort n →
      intOfDigits i (String.ofList (toString n).toList) = .ok n := by
    intro n hn hshort
    rw [String.ofList_toList]
    exact intOfDigits_toString hn hshort
  have htext : (String.ofList v.parts.text).toList = v.parts.text ++ [] := by
    rw [String.toList_ofList, List.append_nil]
  rcases matchPrefix_text (valid_parts h hreadable) (Or.inl rfl) htext with
    ⟨found, hfound, hgroups⟩
  rw [parseSemverFromString_eq hfound]
  unfold Place.group
  rw [hgroups, SemverParts.lookup_major, SemverParts.lookup_minor, SemverParts.lookup_patch,
    SemverParts.lookup_prerelease, SemverParts.lookup_build, parsedPrerelease_text h hreadable,
    parsedBuild_text h hreadable, Option.getD_some, Option.getD_some, Option.getD_some]
  unfold ModelSemVer.parts
  dsimp only
  rw [hnumber _ h.major hreadable.major, hnumber _ h.minor hreadable.minor,
    hnumber _ h.patch hreadable.patch]
  exact modelValidate_eq_self h

end

/-! ## The identifiers of a parsed version -/

theorem normalizeIdentifier_eq_str (h : normalizeIdentifier i p = .ok (.str s)) :
    p = .str s := by
  cases p with
  | int n =>
    unfold normalizeIdentifier at h
    dsimp only at h
    split_ifs at h
    cases h
  | str t =>
    unfold normalizeIdentifier at h
    dsimp only at h
    split_ifs at h
    · rcases map_eq_ok h with ⟨n, -, hn⟩
      cases hn
    · exact Except.ok.inj h

theorem parsePrereleaseIdentifier_eq_str {t s : String}
    (h : parsePrereleaseIdentifier i t = .ok (.str s)) : t = s := by
  unfold parsePrereleaseIdentifier at h
  split_ifs at h
  · rcases map_eq_ok h with ⟨n, -, hn⟩
    cases hn
  · exact Identifier.str.inj (Except.ok.inj h)

theorem exists_of_validatePrerelease {o o' : Option (List Identifier)}
    (h : validatePrerelease i o = .ok o') (hl : l ∈ o') (hs : .str s ∈ l) :
    ∃ m ∈ o, .str s ∈ m := by
  rcases o with _ | _ | ⟨p, m⟩
  · cases h
    exact nomatch hl
  · cases h
    exact nomatch hl
  · rcases map_eq_ok h with ⟨ps, hps, rfl⟩
    rw [← Option.some.inj hl] at hs
    rcases exists_of_mapM_ok hps _ hs with ⟨q, hq, hqs⟩
    rw [normalizeIdentifier_eq_str hqs] at hq
    exact ⟨_, rfl, hq⟩

theorem validateBuild_subset {o o' : Option (List String)} (h : validateBuild o = .ok o') :
    ∀ l ∈ o', l ∈ o := by
  rcases o with _ | _ | ⟨s, m⟩
  · cases h
    exact fun _ h => h
  · cases h
    exact fun _ h => (nomatch h)
  · unfold validateBuild at h
    dsimp only at h
    split at h
    · cases h
    · cases h
      exact fun _ h => h

/-- No identifier of a parsed version contains a line feed. -/
theorem not_lineFeed_of_parse {v : ModelSemVer} (h : parseSemverFromString i s = .ok v) :
    (∀ l ∈ v.prerelease, ∀ t, .str t ∈ l → '\n' ∉ t.toList) ∧
      ∀ l ∈ v.build, ∀ t ∈ l, '\n' ∉ t.toList := by
  rcases hfound : (semverPattern i).matchPrefix s with _ | found
  · unfold parseSemverFromString at h
    rw [hfound] at h
    cases h
  · rcases exists_parts_of_matchPrefix hfound with ⟨p, hp, hgroups, -⟩
    rw [parseSemverFromString_eq hfound] at h
    unfold Place.group at h
    rw [hgroups, SemverParts.lookup_prerelease, SemverParts.lookup_build] at h
    rcases bind_eq_ok h with ⟨major, -, h⟩
    rcases bind_eq_ok h with ⟨minor, -, h⟩
    rcases bind_eq_ok h with ⟨patch, -, h⟩
    rcases bind_eq_ok h with ⟨prerelease, hprerelease, h⟩
    rcases of_modelValidate h with ⟨-, hnormal, hbuild⟩
    have hline : ∀ (o : Option (List Char)), (∀ w ∈ o, '\n' ∉ w) →
        ∀ t ∈ splitAt '.' ((o.map String.ofList).getD ""), '\n' ∉ t.toList := by
      intro o ho t ht hmem
      have hmem := mem_of_mem_splitAt ht _ hmem
      cases o with
      | none => exact nomatch hmem
      | some w =>
        rw [Option.map_some, Option.getD_some, String.toList_ofList] at hmem
        exact ho w rfl hmem
    constructor
    · intro l hl t ht
      rcases exists_of_validatePrerelease hnormal hl ht with ⟨m, hm, htm⟩
      unfold parsedPrerelease at hprerelease
      split_ifs at hprerelease
      · cases hprerelease
        exact nomatch hm
      · rcases map_eq_ok hprerelease with ⟨ps, hps, rfl⟩
        rw [← Option.some.inj hm] at htm
        rcases exists_of_mapM_ok hps _ htm with ⟨u, hu, hut⟩
        rw [parsePrereleaseIdentifier_eq_str hut] at hu
        refine hline _ (fun w hw hmem => ?_) t hu
        have hchar := isPrereleaseChar_of_mem (hp.prerelease w hw) _ hmem
        unfold isPrereleaseChar at hchar
        rw [not_isDecimal_of_mem i (by decide)] at hchar
        exact absurd hchar (by decide)
    · intro l hl t ht
      have hparsed := validateBuild_subset hbuild l hl
      unfold parsedBuild at hparsed
      split_ifs at hparsed
      · exact nomatch hparsed
      · rw [← Option.some.inj hparsed] at ht
        refine hline _ (fun w hw hmem => ?_) t ht
        exact absurd (isBuildChar_of_mem (hp.build w hw) _ hmem) (by decide)

/-! ## When the round trip succeeds -/

theorem wellFormed_of_accepted {v : ModelSemVer} (h : v.Accepted i) : v.WellFormed i := by
  rcases h with ⟨major, minor, patch, prerelease, build, h⟩
  exact (of_modelValidate h).1

/-- A version is parsed back from its text exactly when its numbers can be printed and its
identifiers are free of line feeds. -/
theorem roundTrips_iff (i : TextInterpreter) (v : ModelSemVer) (h : v.Accepted i) :
    RoundTrips i v ↔ v.Readable := by
  have hwf := wellFormed_of_accepted h
  constructor
  · rintro ⟨text, v', htext, hparse, hkey⟩
    have hshort := isShort_of_pyStr htext
    rcases not_lineFeed_of_parse hparse with ⟨hprerelease, hbuild⟩
    unfold ModelSemVer.exactKey at hkey
    simp only [Prod.mk.injEq] at hkey
    rw [hkey.2.2.2.1] at hprerelease
    rw [hkey.2.2.2.2] at hbuild
    refine ⟨hshort.major, hshort.minor, hshort.patch, fun l hl p hp => ?_, hbuild⟩
    cases p with
    | int n => exact hshort.prerelease l hl _ hp
    | str s => exact hprerelease l hl s hp
  · intro hreadable
    exact ⟨_, v, pyStr_eq hwf hreadable.isShort, parseSemverFromString_text hwf hreadable, rfl⟩

/-- `1.0.0-alpha.1+build.123` -/
def alphaVersion : ModelSemVer :=
  { major := 1, minor := 0, patch := 0, prerelease := some [.str "alpha", .int 1],
    build := some ["build", "123"] }

theorem roundTrips_iff_alphaVersion :
    alphaVersion.Accepted asciiText ∧
      (RoundTrips asciiText alphaVersion ↔ alphaVersion.Readable) := by
  have haccepted : alphaVersion.Accepted asciiText :=
    ⟨1, 0, 0, some [.str "alpha", .str "1"], some ["build", "123"], by decide +kernel⟩
  exact ⟨haccepted, roundTrips_iff asciiText alphaVersion haccepted⟩

def lineFeedVersion : ModelSemVer :=
  { major := 1, minor := 0, patch := 0, prerelease := none, build := some ["abc\n"] }

/-- The constructor accepts it, and the parser drops the line feed. -/
theorem lineFeedVersion_not_roundTrips :
    lineFeedVersion.Accepted asciiText ∧ ¬ RoundTrips asciiText lineFeedVersion := by
  constructor
  · exact ⟨1, 0, 0, none, some ["abc\n"], by decide +kernel⟩
  · rintro ⟨text, v', htext, hparse, hkey⟩
    rw [show lineFeedVersion.pyStr = .ok "1.0.0+abc\n" by decide +kernel] at htext
    cases htext
    rw [show parseSemverFromString asciiText "1.0.0+abc\n" = .ok
      { major := 1, minor := 0, patch := 0, prerelease := none, build := some ["abc"] } by
        decide +kernel] at hparse
    cases hparse
    exact absurd hkey (by decide)

end OmnibaseCore.SemVer
