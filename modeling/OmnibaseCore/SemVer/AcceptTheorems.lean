import OmnibaseCore.Python.Return
import OmnibaseCore.SemVer.Bnf
import OmnibaseCore.SemVer.Theorems

/-!
# What the parser accepts

The parser returns a version exactly when its pattern takes the text, no number in it is too long
for `int`, and no digit of another script stands beside a letter (`exists_parse_iff`). The
grammar knows no limit on numbers, no digits of other scripts and no line feed at the end, and the
parser meets it on all other texts (`meetsGrammar_iff`).
-/

namespace OmnibaseCore.SemVer

open Regex Bnf

variable {i : TextInterpreter}

/-! ## Identifiers -/

/-- `int` reads the number. -/
def IsCounted (w : List Char) : Prop :=
  (strip (String.ofList w)).toList.length ≤ intMaxStrDigits

variable {s : String}

theorem exists_intOfDigits_iff :
    (∃ n, intOfDigits i s = .ok n) ↔ IsCounted s.toList := by
  unfold intOfDigits IsCounted
  rw [String.ofList_toList]
  dsimp only
  split_ifs with h
  · exact ⟨fun ⟨_, hn⟩ => (nomatch hn), fun hle => absurd h (Nat.not_lt.mpr hle)⟩
  · exact ⟨fun _ => Nat.not_lt.mp h, fun _ => ⟨_, rfl⟩⟩

section
variable {t : String} (ht : t.toList ∈ (prereleaseIdentifierRegex i).language)
include ht

theorem not_lineFeed_of_mem : '\n' ∉ t.toList := by
  intro hmem
  have hchar := isDecimal_or_isIdentifierChar_of_mem ht _ hmem
  rw [not_isDecimal_of_mem i (by decide)] at hchar
  exact absurd hchar (by decide)

theorem accepts_numeric_iff :
    (prereleaseNumericPattern i).accepts t = true ↔ t.toList ∈ (numericRegex i).language :=
  accepts_anchored_iff_mem plain_numericRegex (not_lineFeed_of_mem ht)

theorem accepts_leadingZeros_eq_false : (numericWithLeadingZerosPattern i).accepts t = false := by
  rw [← Bool.not_eq_true, accepts_leadingZeros_iff (not_lineFeed_of_mem ht)]
  rintro ⟨ds, hne, hds, htext⟩
  rw [htext] at ht
  rcases mem_language_prereleaseIdentifierRegex.mp ht with hnumeric | ⟨ds', c, cs, -, hc, -, heq⟩
  · rcases mem_language_numericRegex.mp hnumeric with hzero | ⟨c, cs, hc, -, hcons⟩
    · exact hne (List.tail_eq_of_cons_eq hzero)
    · rw [← List.head_eq_of_cons_eq hcons] at hc
      exact absurd hc (by decide)
  · -- the letter or hyphen of the identifier would be a digit
    have hmem : c ∈ '0' :: ds := by
      rw [heq]
      exact List.mem_append_right ds' List.mem_cons_self
    have hdecimal : i.isDecimal c = true := by
      rcases List.mem_cons.mp hmem with rfl | hmem
      · exact isDecimal_of_isDigit i rfl
      · exact hds c hmem
    rw [isDecimal_eq_isDigit i (toNat_lt_of_isNonDigit hc)] at hdecimal
    rw [isDigit_eq_false_of_isNonDigit hc] at hdecimal
    cases hdecimal

theorem exists_identifier_iff :
    (∃ q, parsePrereleaseIdentifier i t = .ok q ∧ ∃ r, normalizeIdentifier i q = .ok r) ↔
      (t.toList ∈ (numericRegex i).language → IsCounted t.toList) ∧
        (t.toList ∉ (numericRegex i).language → ∀ c ∈ t.toList, isIdentifierChar c = true) := by
  have hnumeric := accepts_numeric_iff ht
  unfold parsePrereleaseIdentifier
  rw [accepts_leadingZeros_eq_false ht, if_neg Bool.false_ne_true]
  by_cases hmem : t.toList ∈ (numericRegex i).language
  · rw [if_pos (hnumeric.mpr hmem), ← exists_intOfDigits_iff]
    constructor
    · rintro ⟨q, hq, -⟩
      rcases map_eq_ok hq with ⟨n, hn, -⟩
      exact ⟨fun _ => ⟨n, hn⟩, fun h => absurd hmem h⟩
    · rintro ⟨h, -⟩
      rcases h hmem with ⟨n, hn⟩
      refine ⟨.int n, by rw [hn]; rfl, .int n, ?_⟩
      exact normalizeIdentifier_eq_self (intOfDigits_nonneg hn)
  · have hchars : prereleaseAlphanumericPattern.accepts t = true ↔
        ∀ c ∈ t.toList, isIdentifierChar c = true := by
      rw [show prereleaseAlphanumericPattern = .seq start (.seq identifierRegex finish) from rfl,
        accepts_anchored_iff_mem plain_identifierRegex (not_lineFeed_of_mem ht),
        mem_language_identifierRegex]
      exact and_iff_right (ne_nil_of_mem_prereleaseIdentifierRegex ht)
    rw [if_neg (mt hnumeric.mp hmem), ← hchars]
    constructor
    · rintro ⟨q, hq, r, hr⟩
      refine ⟨fun h => absurd h hmem, fun _ => ?_⟩
      rw [← Except.ok.inj hq] at hr
      unfold normalizeIdentifier at hr
      dsimp only at hr
      split_ifs at hr with hfails
      · simpa using hfails
      · simpa using hfails
    · rintro ⟨-, h⟩
      refine ⟨.str t, rfl, .str t, normalizeIdentifier_eq_self ⟨h hmem, ?_, ?_⟩⟩
      · exact accepts_leadingZeros_eq_false ht
      · rwa [← Bool.not_eq_true, hnumeric]

end

/-! ## The constructor -/

theorem exists_validatePrerelease_iff {ids : List Identifier} :
    (∃ o, validatePrerelease i (some ids) = .ok o) ↔
      ∃ l, ids.mapM (normalizeIdentifier i) = .ok l := by
  cases ids with
  | nil => exact ⟨fun _ => ⟨[], rfl⟩, fun _ => ⟨none, rfl⟩⟩
  | cons q qs =>
    constructor
    · rintro ⟨o, ho⟩
      rcases map_eq_ok ho with ⟨l, hl, -⟩
      exact ⟨l, hl⟩
    · rintro ⟨l, hl⟩
      exact ⟨some l, congrArg (Except.map some) hl⟩

theorem exists_modelValidate_iff {major minor patch : ℤ} {prerelease : Option (List Identifier)}
    {build : Option (List String)} (hmajor : 0 ≤ major) (hminor : 0 ≤ minor) (hpatch : 0 ≤ patch) :
    (∃ v, ModelSemVer.modelValidate i major minor patch prerelease build = .ok v) ↔
      (∃ o, validatePrerelease i prerelease = .ok o) ∧ ∃ o, validateBuild build = .ok o := by
  constructor
  · rintro ⟨v, hv⟩
    rcases of_modelValidate hv with ⟨-, hprerelease, hbuild⟩
    exact ⟨⟨_, hprerelease⟩, _, hbuild⟩
  · rintro ⟨⟨o, ho⟩, b, hb⟩
    refine ⟨⟨major, minor, patch, o, b⟩, ?_⟩
    unfold ModelSemVer.modelValidate
    rw [ho, hb]
    dsimp only
    rw [if_neg]
    rw [not_not, negative_eq_nil_iff]
    simp [hmajor, hminor, hpatch]

/-! ## Sections -/

variable {w : List Char}

theorem splitAt_of_mem_dotted {r : Regex} (hdot : ∀ u ∈ r.language, '.' ∉ u)
    (hw : w ∈ (dotted r).language) : splitAt '.' (String.ofList w) ≠ [] ∧
      (∀ t ∈ splitAt '.' (String.ofList w), t.toList ∈ r.language) ∧
      (String.ofList w) = ".".intercalate (splitAt '.' (String.ofList w)) := by
  rcases mem_language_dotted.mp hw with ⟨l, hne, hl, rfl⟩
  have htext : String.ofList (['.'].intercalate l) =
      ".".intercalate (l.map String.ofList) := by
    apply String.toList_injective
    rw [toList_dotJoin, String.toList_ofList, List.map_map]
    congr 1
    symm
    apply List.map_id''
    intro u
    exact String.toList_ofList
  have hsplit : splitAt '.' (String.ofList (['.'].intercalate l)) = l.map String.ofList := by
    rw [htext]
    apply splitAt_intercalate
    · rwa [ne_eq, List.map_eq_nil_iff]
    · intro s hs
      rcases List.mem_map.mp hs with ⟨u, hu, rfl⟩
      rw [String.toList_ofList]
      exact hdot u (hl u hu)
  rw [hsplit]
  refine ⟨by rwa [ne_eq, List.map_eq_nil_iff], fun t ht => ?_, htext⟩
  rcases List.mem_map.mp ht with ⟨u, hu, rfl⟩
  rw [String.toList_ofList]
  exact hl u hu

variable {u : List Char}

theorem dot_notMem_prereleaseIdentifierRegex
    (hu : u ∈ (prereleaseIdentifierRegex i).language) : '.' ∉ u := by
  intro hmem
  have hchar := isDecimal_or_isIdentifierChar_of_mem hu _ hmem
  rw [not_isDecimal_of_mem i (by decide)] at hchar
  exact absurd hchar (by decide)

theorem dot_notMem_identifierRegex (hu : u ∈ identifierRegex.language) :
    '.' ∉ u :=
  fun hmem => absurd ((mem_language_identifierRegex.mp hu).2 '.' hmem) (by decide)

/-! ## Acceptance -/

/-- `int` reads every number of the version. -/
structure SemverParts.HasShortNumbers (i : TextInterpreter) (p : SemverParts) : Prop where
  major : IsCounted p.major
  minor : IsCounted p.minor
  patch : IsCounted p.patch
  prerelease : ∀ w ∈ p.prerelease, ∀ t ∈ splitAt '.' (String.ofList w),
    t.toList ∈ (numericRegex i).language → IsCounted t.toList

/-- No identifier of the prerelease that is a name has a digit of another script in it. -/
def SemverParts.HasPlainNames (i : TextInterpreter) (p : SemverParts) : Prop :=
  ∀ w ∈ p.prerelease, ∀ t ∈ splitAt '.' (String.ofList w),
    t.toList ∉ (numericRegex i).language → ∀ c ∈ t.toList, isIdentifierChar c = true

section
variable {p : SemverParts} (hp : p.Valid i)
include hp

theorem exists_prerelease_iff :
    (∃ ids, parsedPrerelease i (p.prerelease.map String.ofList) = .ok ids ∧
      ∃ o, validatePrerelease i ids = .ok o) ↔
      ∀ w ∈ p.prerelease, ∀ t ∈ splitAt '.' (String.ofList w),
        (t.toList ∈ (numericRegex i).language → IsCounted t.toList) ∧
          (t.toList ∉ (numericRegex i).language → ∀ c ∈ t.toList, isIdentifierChar c = true) := by
  cases hw : p.prerelease with
  | none => exact ⟨fun _ _ h => (nomatch h), fun _ => ⟨none, rfl, none, rfl⟩⟩
  | some w =>
    have hmem := hp.prerelease w hw
    have hne : String.ofList w ≠ "" := by
      rw [ne_eq, ← String.toList_eq_nil_iff, String.toList_ofList]
      exact ne_nil_of_mem_dotted (fun _ => ne_nil_of_mem_prereleaseIdentifierRegex) hmem
    rcases splitAt_of_mem_dotted (fun _ => dot_notMem_prereleaseIdentifierRegex) hmem with
      ⟨-, hpieces, -⟩
    have hparsed : parsedPrerelease i ((some w).map String.ofList) =
        ((splitAt '.' (String.ofList w)).mapM (parsePrereleaseIdentifier i)).map some := by
      unfold parsedPrerelease
      rw [Option.map_some, Option.getD_some, if_neg hne]
    have hloops : (∃ ids, parsedPrerelease i ((some w).map String.ofList) = .ok ids ∧
        ∃ o, validatePrerelease i ids = .ok o) ↔
          ∃ l, (splitAt '.' (String.ofList w)).mapM (parsePrereleaseIdentifier i) = .ok l ∧
            ∃ l', l.mapM (normalizeIdentifier i) = .ok l' := by
      rw [hparsed]
      constructor
      · rintro ⟨ids, hids, ho⟩
        rcases map_eq_ok hids with ⟨l, hl, rfl⟩
        exact ⟨l, hl, exists_validatePrerelease_iff.mp ho⟩
      · rintro ⟨l, hl, hl'⟩
        exact ⟨some l, congrArg (Except.map some) hl, exists_validatePrerelease_iff.mpr hl'⟩
    rw [hloops, exists_mapM_mapM_iff]
    constructor
    · rintro h _ ⟨rfl⟩ t ht
      exact (exists_identifier_iff (hpieces t ht)).mp (h t ht)
    · exact fun h t ht => (exists_identifier_iff (hpieces t ht)).mpr (h w rfl t ht)

theorem validateBuild_parsedBuild :
    validateBuild (parsedBuild (p.build.map String.ofList)) =
      .ok (p.build.map fun w => splitAt '.' (String.ofList w)) := by
  cases hw : p.build with
  | none => rfl
  | some w =>
    have hmem := hp.build w hw
    have hne : String.ofList w ≠ "" := by
      rw [ne_eq, ← String.toList_eq_nil_iff, String.toList_ofList]
      exact ne_nil_of_mem_dotted (fun _ hu => (mem_language_identifierRegex.mp hu).1) hmem
    rcases splitAt_of_mem_dotted (fun _ => dot_notMem_identifierRegex) hmem with
      ⟨hsplit, hpieces, -⟩
    have hparsed : parsedBuild ((some w).map String.ofList) =
        some (splitAt '.' (String.ofList w)) := by
      unfold parsedBuild
      rw [Option.map_some, Option.getD_some, if_neg hne]
    rw [hparsed]
    apply validateBuild_eq_self
    rintro _ ⟨rfl⟩
    refine ⟨hsplit, fun t ht => ?_⟩
    have hline : '\n' ∉ t.toList := fun hmem =>
      absurd ((mem_language_identifierRegex.mp (hpieces t ht)).2 '\n' hmem) (by decide)
    exact (accepts_anchored_iff_mem plain_identifierRegex hline).mpr (hpieces t ht)

/-- When the parser returns a version, for a text that its pattern takes. -/
theorem exists_parse_iff (hu : u = [] ∨ u = ['\n']) (h : s.toList = p.text ++ u) :
    (∃ v, parseSemverFromString i s = .ok v) ↔ p.HasShortNumbers i ∧ p.HasPlainNames i := by
  rcases matchPrefix_text hp hu h with ⟨found, hfound, hgroups⟩
  have hgroup : ∀ w : List Char, IsCounted w ↔ ∃ n, intOfDigits i (String.ofList w) = .ok n := by
    intro w
    rw [exists_intOfDigits_iff, String.toList_ofList]
  rw [parseSemverFromString_eq hfound]
  unfold Place.group
  rw [hgroups, SemverParts.lookup_major, SemverParts.lookup_minor, SemverParts.lookup_patch,
    SemverParts.lookup_prerelease, SemverParts.lookup_build, Option.getD_some, Option.getD_some,
    Option.getD_some]
  have hsections := exists_prerelease_iff hp
  have hbuild := validateBuild_parsedBuild hp
  constructor
  · rintro ⟨v, hv⟩
    rcases bind_eq_ok hv with ⟨major, hmajor, hv⟩
    rcases bind_eq_ok hv with ⟨minor, hminor, hv⟩
    rcases bind_eq_ok hv with ⟨patch, hpatch, hv⟩
    rcases bind_eq_ok hv with ⟨ids, hids, hv⟩
    have hprerelease := hsections.mp ⟨ids, hids, _, (of_modelValidate hv).2.1⟩
    exact ⟨⟨(hgroup _).mpr ⟨major, hmajor⟩, (hgroup _).mpr ⟨minor, hminor⟩,
      (hgroup _).mpr ⟨patch, hpatch⟩, fun w hw t ht => (hprerelease w hw t ht).1⟩,
      fun w hw t ht => (hprerelease w hw t ht).2⟩
  · rintro ⟨hshort, hnames⟩
    rcases (hgroup _).mp hshort.major with ⟨major, hmajor⟩
    rcases (hgroup _).mp hshort.minor with ⟨minor, hminor⟩
    rcases (hgroup _).mp hshort.patch with ⟨patch, hpatch⟩
    rcases hsections.mpr fun w hw t ht => ⟨hshort.prerelease w hw t ht, hnames w hw t ht⟩ with
      ⟨ids, hids, ho⟩
    rcases (exists_modelValidate_iff (intOfDigits_nonneg hmajor) (intOfDigits_nonneg hminor)
      (intOfDigits_nonneg hpatch)).mpr ⟨ho, _, hbuild⟩ with ⟨v, hv⟩
    refine ⟨v, ?_⟩
    rw [hmajor, hminor, hpatch, hids]
    exact hv

end

/-! ## The version of a text of the grammar -/

theorem digitChar_decimal {d : Char} (h : d.isDigit = true) :
    ∃ n, n < 10 ∧ i.decimal d = some n ∧ Nat.digitChar n = d := by
  have hrange := Char.isDigit_iff_toNat.mp h
  have hzero : '0'.toNat = 48 := rfl
  have hnine : '9'.toNat = 57 := rfl
  have hlt : d.toNat - 48 < 10 := by omega
  refine ⟨d.toNat - 48, hlt, ?_, ?_⟩
  · rw [i.decimal_ascii d (toNat_lt_of_isDigit h), if_pos h]
  · apply Char.toNat_inj.mp
    rw [Nat.toNat_digitChar_of_lt_ten hlt]
    omega

theorem toDigits_digitsValue (hw : w ∈ (numericRegex i).language) (hascii : IsAscii w) :
    Nat.toDigits 10 (digitsValue i w) = w := by
  rcases mem_language_numericRegex.mp hw with rfl | ⟨c, ds, hc, hds, rfl⟩
  · have hzero : digitsValue i ['0'] = 0 := by
      unfold digitsValue
      rw [List.foldl_cons, List.foldl_nil, i.decimal_ascii '0' (by decide)]
      rfl
    rw [hzero]
    rfl
  · -- digit after digit; the value is never zero, so that no digit is lost
    suffices h : 0 < digitsValue i (c :: ds) ∧
        Nat.toDigits 10 (digitsValue i (c :: ds)) = c :: ds from h.2
    induction ds using List.reverseRecOn with
    | nil =>
      rcases digitChar_decimal (i := i) (isDigit_of_isNonzeroDigit hc) with ⟨n, hn, hdecimal, hchar⟩
      have hvalue : digitsValue i [c] = n := by
        unfold digitsValue
        rw [List.foldl_cons, List.foldl_nil, hdecimal]
        exact Nat.zero_add n
      rw [hvalue, Nat.toDigits_of_lt_base hn, hchar]
      refine ⟨?_, rfl⟩
      rw [Nat.pos_iff_ne_zero]
      rintro rfl
      rw [← hchar] at hc
      exact absurd hc (by decide)
    | append_singleton ds d ih =>
      rw [List.forall_mem_append, List.forall_mem_singleton] at hds
      rw [← List.cons_append, isAscii_append] at hascii
      have hmem : c :: ds ∈ (numericRegex i).language :=
        mem_language_numericRegex.mpr (Or.inr ⟨c, ds, hc, hds.1, rfl⟩)
      rcases ih hds.1 hmem hascii.1 with ⟨hpos, hdigits⟩
      have hdigit : d.isDigit = true := by
        rw [← isDecimal_eq_isDigit i (hascii.2 d List.mem_cons_self)]
        exact hds.2
      rcases digitChar_decimal (i := i) hdigit with ⟨n, hn, hdecimal, hchar⟩
      have hvalue : digitsValue i (c :: (ds ++ [d])) = 10 * digitsValue i (c :: ds) + n := by
        unfold digitsValue
        rw [← List.cons_append, List.foldl_append, List.foldl_cons, List.foldl_cons, List.foldl_nil,
          hdecimal]
        rfl
      rw [hvalue]
      refine ⟨by omega, ?_⟩
      rw [Nat.toDigits_of_base_le (by decide) (by omega)]
      have hdiv : (10 * digitsValue i (c :: ds) + n) / 10 = digitsValue i (c :: ds) := by omega
      have hmod : (10 * digitsValue i (c :: ds) + n) % 10 = n := by omega
      rw [hdiv, hmod, hdigits, hchar, List.cons_append]

section
variable (i)

def readIdentifier (t : String) : Identifier :=
  if (prereleaseNumericPattern i).accepts t then .int (digitsValue i t.toList) else .str t

def SemverParts.version (p : SemverParts) : ModelSemVer where
  major := digitsValue i p.major
  minor := digitsValue i p.minor
  patch := digitsValue i p.patch
  prerelease := p.prerelease.map fun w =>
    (splitAt '.' (String.ofList w)).map (readIdentifier i)
  build := p.build.map fun w => splitAt '.' (String.ofList w)

end

theorem toString_digitsValue (hw : w ∈ (numericRegex i).language) (hascii : IsAscii w) :
    (toString (digitsValue i w : ℤ)).toList = w := by
  rw [toList_toString (Int.natCast_nonneg _), Int.toNat_natCast, toDigits_digitsValue hw hascii]

theorem isCounted_iff (hw : w ∈ (numericRegex i).language) (hascii : IsAscii w) :
    IsCounted w ↔ IsShort (digitsValue i w : ℤ) := by
  have hspace : ∀ c ∈ w, isSpace c = false := by
    intro c hc
    apply isSpace_of_isDigit
    rw [← isDecimal_eq_isDigit i (hascii c hc)]
    exact isDecimal_of_mem_numericRegex hw c hc
  have hlength : (toString (digitsValue i w : ℤ).natAbs).length = w.length := by
    have hlist := toString_digitsValue hw hascii
    show (toString (digitsValue i w)).toList.length = w.length
    exact congrArg List.length hlist
  unfold IsCounted IsShort
  rw [strip_eq_self (by rwa [String.toList_ofList]), String.toList_ofList, hlength]

section
variable {t : String} (ht : t.toList ∈ (prereleaseIdentifierRegex i).language)
  (hascii : IsAscii t.toList)
include ht hascii

theorem isIdentifierChar_of_isAscii : ∀ c ∈ t.toList, isIdentifierChar c = true := by
  intro c hc
  have hchar := isDecimal_or_isIdentifierChar_of_mem ht c hc
  rw [isDecimal_eq_isDigit i (hascii c hc), Bool.or_eq_true] at hchar
  rcases hchar with hdigit | hchar
  · exact isIdentifierChar_iff.mpr (Or.inl hdigit)
  · exact hchar

theorem readIdentifier_text : (readIdentifier i t).text = t := by
  unfold readIdentifier
  split_ifs with hnumeric
  · rw [accepts_numeric_iff ht] at hnumeric
    exact String.toList_injective (toString_digitsValue hnumeric hascii)
  · rfl

theorem readIdentifier_wellFormed : (readIdentifier i t).WellFormed i := by
  unfold readIdentifier
  split_ifs with hnumeric
  · exact Int.natCast_nonneg _
  · refine ⟨?_, accepts_leadingZeros_eq_false ht, by rwa [← Bool.not_eq_true]⟩
    rw [show prereleaseAlphanumericPattern = .seq start (.seq identifierRegex finish) from rfl,
      accepts_anchored_iff_mem plain_identifierRegex (not_lineFeed_of_mem ht),
      mem_language_identifierRegex]
    exact ⟨ne_nil_of_mem_prereleaseIdentifierRegex ht, isIdentifierChar_of_isAscii ht hascii⟩

theorem readIdentifier_readable
    (hcounted : t.toList ∈ (numericRegex i).language → IsCounted t.toList) :
    (readIdentifier i t).Readable := by
  unfold readIdentifier
  split_ifs with hnumeric
  · rw [accepts_numeric_iff ht] at hnumeric
    exact (isCounted_iff hnumeric hascii).mp (hcounted hnumeric)
  · exact not_lineFeed_of_mem ht

end

section
variable {p : SemverParts} (hp : p.Valid i) (hascii : IsAscii p.text)
include hp hascii

theorem of_mem_splitAt_prerelease {w : List Char} (hw : w ∈ p.prerelease) :
    splitAt '.' (String.ofList w) ≠ [] ∧
      (∀ t ∈ splitAt '.' (String.ofList w),
        t.toList ∈ (prereleaseIdentifierRegex i).language ∧ IsAscii t.toList) ∧
      String.ofList w = ".".intercalate (splitAt '.' (String.ofList w)) := by
  rcases splitAt_of_mem_dotted (fun _ => dot_notMem_prereleaseIdentifierRegex)
    (hp.prerelease w hw) with ⟨hne, hpieces, htext⟩
  refine ⟨hne, fun t ht => ⟨hpieces t ht, fun c hc => ?_⟩, htext⟩
  have hmem := mem_of_mem_splitAt ht c hc
  rw [String.toList_ofList] at hmem
  exact (isAscii_text_iff.mp hascii).2.2.2.1 w hw c hmem

theorem version_parts : (p.version i).parts = p := by
  rcases isAscii_text_iff.mp hascii with ⟨hmajor, hminor, hpatch, -, -⟩
  have hprerelease : (p.version i).parts.prerelease = p.prerelease := by
    unfold SemverParts.version ModelSemVer.parts
    dsimp only
    cases hw : p.prerelease with
    | none => rfl
    | some w =>
      rcases of_mem_splitAt_prerelease hp hascii hw with ⟨-, hpieces, htext⟩
      have hread : ((splitAt '.' (String.ofList w)).map (readIdentifier i)).map Identifier.text =
          splitAt '.' (String.ofList w) := by
        rw [List.map_map]
        apply List.map_congr_left (g := id) _ |>.trans (List.map_id _)
        exact fun t ht => readIdentifier_text (hpieces t ht).1 (hpieces t ht).2
      rw [Option.map_some, Option.map_some, hread, ← htext, String.toList_ofList]
  have hbuild : (p.version i).parts.build = p.build := by
    unfold SemverParts.version ModelSemVer.parts
    dsimp only
    cases hw : p.build with
    | none => rfl
    | some w =>
      rcases splitAt_of_mem_dotted (fun _ => dot_notMem_identifierRegex) (hp.build w hw) with
        ⟨-, -, htext⟩
      rw [Option.map_some, Option.map_some, ← htext, String.toList_ofList]
  have hparts : (p.version i).parts =
      ⟨(toString (digitsValue i p.major : ℤ)).toList, (toString (digitsValue i p.minor : ℤ)).toList,
        (toString (digitsValue i p.patch : ℤ)).toList, (p.version i).parts.prerelease,
        (p.version i).parts.build⟩ := rfl
  rw [hparts, toString_digitsValue hp.major hmajor, toString_digitsValue hp.minor hminor,
    toString_digitsValue hp.patch hpatch, hprerelease, hbuild]

theorem version_wellFormed : (p.version i).WellFormed i where
  major := Int.natCast_nonneg _
  minor := Int.natCast_nonneg _
  patch := Int.natCast_nonneg _
  prerelease := by
    intro l hl
    rcases Option.mem_map.mp hl with ⟨w, hw, rfl⟩
    rcases of_mem_splitAt_prerelease hp hascii hw with ⟨hne, hpieces, -⟩
    refine ⟨by rwa [ne_eq, List.map_eq_nil_iff], fun q hq => ?_⟩
    rcases List.mem_map.mp hq with ⟨t, ht, rfl⟩
    exact readIdentifier_wellFormed (hpieces t ht).1 (hpieces t ht).2
  build := by
    have hself := validateBuild_parsedBuild hp
    exact wellFormed_of_validateBuild hself

theorem version_readable (hshort : p.HasShortNumbers i) : (p.version i).Readable where
  major := (isCounted_iff hp.major (isAscii_text_iff.mp hascii).1).mp hshort.major
  minor := (isCounted_iff hp.minor (isAscii_text_iff.mp hascii).2.1).mp hshort.minor
  patch := (isCounted_iff hp.patch (isAscii_text_iff.mp hascii).2.2.1).mp hshort.patch
  prerelease := by
    intro l hl q hq
    rcases Option.mem_map.mp hl with ⟨w, hw, rfl⟩
    rcases List.mem_map.mp hq with ⟨t, ht, rfl⟩
    rcases of_mem_splitAt_prerelease hp hascii hw with ⟨-, hpieces, -⟩
    exact readIdentifier_readable (hpieces t ht).1 (hpieces t ht).2 (hshort.prerelease w hw t ht)
  build := by
    intro l hl t ht hline
    rcases Option.mem_map.mp hl with ⟨w, hw, rfl⟩
    rcases splitAt_of_mem_dotted (fun _ => dot_notMem_identifierRegex) (hp.build w hw) with
      ⟨-, hpieces, -⟩
    exact absurd ((mem_language_identifierRegex.mp (hpieces t ht)).2 '\n' hline) (by decide)

theorem parse_of_grammar (hs : s.toList = p.text) (hshort : p.HasShortNumbers i) :
    parseSemverFromString i s = .ok (p.version i) ∧ (p.version i).pyStr = .ok s := by
  have hwf := version_wellFormed hp hascii
  have hreadable := version_readable hp hascii hshort
  have htext : String.ofList (p.version i).parts.text = s := by
    rw [version_parts hp hascii, ← hs, String.ofList_toList]
  have hparse := parseSemverFromString_text hwf hreadable
  have hprint := pyStr_eq hwf hreadable.isShort
  rw [htext] at hparse hprint
  exact ⟨hparse, hprint⟩

end

/-! ## The parser and the grammar -/

/-- The parser takes the text if and only if it is a version of the grammar, and the version that
it returns is printed as the text. -/
def MeetsGrammar (i : TextInterpreter) (s : String) : Prop :=
  ((∃ v, parseSemverFromString i s = .ok v) ↔ s.toList ∈ validSemver) ∧
    ∀ v, parseSemverFromString i s = .ok v → v.pyStr = .ok s

/-- Where the pattern and `int` part from the grammar. -/
structure IsRegular (i : TextInterpreter) (s : String) : Prop where
  /-- A version of the grammar has no number that is too long for `int`. -/
  short : ∀ p : SemverParts, p.Valid i → s.toList = p.text → IsAscii s.toList →
    p.HasShortNumbers i
  /-- A text that the pattern takes has no digits of other scripts, unless the version is turned
  down for them or for the length of a number. -/
  ascii : ∀ p : SemverParts, p.Valid i → s.toList = p.text → p.HasShortNumbers i →
    p.HasPlainNames i → IsAscii s.toList
  /-- No line feed comes after such a text. -/
  ended : ∀ p : SemverParts, p.Valid i → s.toList = p.text ++ ['\n'] →
    ¬ (p.HasShortNumbers i ∧ p.HasPlainNames i)

/-- The parser meets the grammar exactly on the regular texts. -/
theorem meetsGrammar_iff (i : TextInterpreter) (s : String) :
    MeetsGrammar i s ↔ IsRegular i s := by
  have hplain : ∀ {p : SemverParts}, s.toList = p.text → s.toList = p.text ++ [] := by
    intro p hs
    rw [List.append_nil, hs]
  constructor
  · rintro ⟨hmeets, -⟩
    refine ⟨fun p hp hs hascii => ?_, fun p hp hs hshort hnames => ?_, fun p hp hs hboth => ?_⟩
    · have hparse := hmeets.mpr ((mem_validSemver_iff i).mpr ⟨p, hp, hs, hascii⟩)
      exact ((exists_parse_iff hp (Or.inl rfl) (hplain hs)).mp hparse).1
    · have hparse := (exists_parse_iff hp (Or.inl rfl) (hplain hs)).mpr ⟨hshort, hnames⟩
      rcases (mem_validSemver_iff i).mp (hmeets.mp hparse) with ⟨-, -, -, hascii⟩
      exact hascii
    · have hparse := (exists_parse_iff hp (Or.inr rfl) hs).mpr hboth
      -- the parts of a version of the grammar end before the line feed
      rcases (mem_validSemver_iff i).mp (hmeets.mp hparse) with ⟨q, hq, hqs, -⟩
      have hpq : q = p := by
        apply SemverParts.text_injective hq hp (Or.inl rfl) (Or.inr rfl)
        rw [← hs, hqs, List.append_nil]
      rw [hqs, hpq] at hs
      have hlength := congrArg List.length hs
      simp at hlength
  · rintro ⟨hshort, hascii, hended⟩
    have hparts : ∀ v, parseSemverFromString i s = .ok v →
        ∃ p : SemverParts, p.Valid i ∧ s.toList = p.text ∧ IsAscii s.toList ∧
          p.HasShortNumbers i := by
      intro v hv
      rcases hfound : (semverPattern i).matchPrefix s with _ | found
      · unfold parseSemverFromString at hv
        rw [hfound] at hv
        cases hv
      · rcases exists_parts_of_matchPrefix hfound with ⟨p, hp, -, hs | hs⟩
        · have hboth := (exists_parse_iff hp (Or.inl rfl) (hplain hs)).mp ⟨v, hv⟩
          exact ⟨p, hp, hs, hascii p hp hs hboth.1 hboth.2, hboth.1⟩
        · exact absurd ((exists_parse_iff hp (Or.inr rfl) hs).mp ⟨v, hv⟩) (hended p hp hs)
    refine ⟨⟨?_, fun hgrammar => ?_⟩, fun v hv => ?_⟩
    · rintro ⟨v, hv⟩
      rcases hparts v hv with ⟨p, hp, hs, hall, -⟩
      exact (mem_validSemver_iff i).mpr ⟨p, hp, hs, hall⟩
    · rcases (mem_validSemver_iff i).mp hgrammar with ⟨p, hp, hs, hall⟩
      have hparse := parse_of_grammar hp (hs ▸ hall) hs (hshort p hp hs hall)
      exact ⟨_, hparse.1⟩
    · rcases hparts v hv with ⟨p, hp, hs, hall, hnumbers⟩
      have hparse := parse_of_grammar hp (hs ▸ hall) hs hnumbers
      rw [hparse.1] at hv
      rw [← Except.ok.inj hv]
      exact hparse.2

/-- The pattern ends in `$`, which lets a line feed at the end through. -/
theorem lineFeed_not_meetsGrammar : ¬ MeetsGrammar asciiText "1.0.0\n" := by
  rintro ⟨-, hprint⟩
  have hparse : parseSemverFromString asciiText "1.0.0\n" =
      .ok { major := 1, minor := 0, patch := 0, prerelease := none, build := none } := by
    decide +kernel
  have htext := hprint _ hparse
  exact absurd htext (by decide +kernel)

end OmnibaseCore.SemVer
