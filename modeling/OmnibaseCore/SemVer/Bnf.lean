import OmnibaseCore.SemVer.Grammar

/-!
# The grammar of SemVer 2.0.0

The productions of the specification, as languages. A text is a version of the grammar exactly
when the pattern of the parser takes it apart and all of it is ASCII (`mem_validSemver_iff`): the
class `\d` of the pattern has the digits of every script in it, the grammar those of ASCII only.
-/

namespace OmnibaseCore.SemVer

open Computability Regex

namespace Bnf

/-! ## The productions -/

/-- The texts of one character of a class. -/
def one (p : Char → Bool) : Language Char := {w | ∃ c, p c = true ∧ w = [c]}

def digits : Language Char := one Char.isDigit * (one Char.isDigit)∗

def identifierCharacters : Language Char := one isIdentifierChar * (one isIdentifierChar)∗

def numericIdentifier : Language Char :=
  one (fun c => c = '0') + one isNonzeroDigit + one isNonzeroDigit * digits

def alphanumericIdentifier : Language Char :=
  one isNonDigit + one isNonDigit * identifierCharacters +
    identifierCharacters * one isNonDigit +
    identifierCharacters * one isNonDigit * identifierCharacters

def prereleaseIdentifier : Language Char := alphanumericIdentifier + numericIdentifier

def buildIdentifier : Language Char := alphanumericIdentifier + digits

def dotSeparated (identifier : Language Char) : Language Char :=
  identifier * (one (fun c => c = '.') * identifier)∗

def versionCore : Language Char :=
  numericIdentifier * (one (fun c => c = '.') *
    (numericIdentifier * (one (fun c => c = '.') * numericIdentifier)))

def introduced (sign : Char) (l : Language Char) : Language Char := one (fun c => c = sign) * l

def validSemver : Language Char :=
  versionCore + versionCore * introduced '-' (dotSeparated prereleaseIdentifier) +
    versionCore * introduced '+' (dotSeparated buildIdentifier) +
    versionCore * (introduced '-' (dotSeparated prereleaseIdentifier) *
      introduced '+' (dotSeparated buildIdentifier))

/-! ## Texts of ASCII -/

def IsAscii (w : List Char) : Prop := ∀ c ∈ w, c.toNat < 128

theorem isAscii_append {u v : List Char} : IsAscii (u ++ v) ↔ IsAscii u ∧ IsAscii v :=
  List.forall_mem_append

variable {c : Char}

theorem isAscii_cons {w : List Char} : IsAscii (c :: w) ↔ c.toNat < 128 ∧ IsAscii w :=
  List.forall_mem_cons

theorem isAscii_nil : IsAscii [] := fun _ h => nomatch h

theorem toNat_lt_of_isDigit (h : c.isDigit = true) : c.toNat < 128 := by
  simp only [Char.isDigit, Bool.and_eq_true, decide_eq_true_eq] at h
  have hle := UInt32.le_iff_toNat_le.mp h.2
  show c.val.toNat < 128
  exact lt_of_le_of_lt hle (by decide)

theorem toNat_lt_of_isNonDigit (h : isNonDigit c = true) : c.toNat < 128 := by
  unfold isNonDigit Char.isAlpha Char.isUpper Char.isLower at h
  simp only [Bool.or_eq_true, Bool.and_eq_true, decide_eq_true_eq] at h
  show c.val.toNat < 128
  rcases h with (h | h) | rfl
  · exact lt_of_le_of_lt (UInt32.le_iff_toNat_le.mp h.2) (by decide)
  · exact lt_of_le_of_lt (UInt32.le_iff_toNat_le.mp h.2) (by decide)
  · decide

theorem isDigit_eq_false_of_isNonDigit (h : isNonDigit c = true) : c.isDigit = false := by
  unfold isNonDigit Char.isAlpha Char.isUpper Char.isLower at h
  rw [← Bool.not_eq_true, Char.isDigit_iff_toNat]
  simp only [Bool.or_eq_true, Bool.and_eq_true, decide_eq_true_eq, ge_iff_le,
    UInt32.le_iff_toNat_le] at h
  have hval : c.toNat = c.val.toNat := rfl
  rw [hval]
  rcases h with (h | h) | rfl
  · have hA : 'A'.val.toNat = 65 := rfl
    have hnine : '9'.toNat = 57 := rfl
    omega
  · have ha : 'a'.val.toNat = 97 := rfl
    have hnine : '9'.toNat = 57 := rfl
    omega
  · decide

theorem toNat_lt_of_isIdentifierChar (h : isIdentifierChar c = true) : c.toNat < 128 := by
  rcases isIdentifierChar_iff.mp h with h | h
  · exact toNat_lt_of_isDigit h
  · exact toNat_lt_of_isNonDigit h

/-! ## Membership -/

section
variable {i : TextInterpreter} {p : Char → Bool} {w : List Char}

theorem mem_many : w ∈ one p * (one p)∗ ↔ w ≠ [] ∧ ∀ c ∈ w, p c = true :=
  mem_language_plus_chars

theorem mem_identifierCharacters :
    w ∈ identifierCharacters ↔ w ≠ [] ∧ ∀ c ∈ w, isIdentifierChar c = true :=
  mem_many

theorem mem_one_char {c : Char} : w ∈ one (fun d => d = c) ↔ w = [c] :=
  mem_language_char

theorem mem_introduced {sign : Char} {l : Language Char} :
    w ∈ introduced sign l ↔ ∃ u ∈ l, w = sign :: u := by
  unfold introduced
  rw [Language.mem_mul]
  constructor
  · rintro ⟨s, hs, u, hu, rfl⟩
    rw [mem_one_char.mp hs]
    exact ⟨u, hu, rfl⟩
  · rintro ⟨u, hu, rfl⟩
    exact ⟨[sign], mem_one_char.mpr rfl, u, hu, rfl⟩

theorem mem_numericIdentifier_iff (i : TextInterpreter) :
    w ∈ numericIdentifier ↔ w ∈ (numericRegex i).language ∧ IsAscii w := by
  have hdigits : ∀ {ds : List Char}, IsAscii ds →
      ((∀ d ∈ ds, i.isDecimal d = true) ↔ ∀ d ∈ ds, d.isDigit = true) := by
    intro ds hds
    apply forall₂_congr
    intro d hd
    rw [isDecimal_eq_isDigit i (hds d hd)]
  have hrest : w ∈ numericIdentifier ↔ w = ['0'] ∨
      ∃ c ds, isNonzeroDigit c = true ∧ (∀ d ∈ ds, d.isDigit = true) ∧ w = c :: ds := by
    unfold numericIdentifier digits
    rw [Language.mem_add, Language.mem_add, mem_one_char, or_assoc]
    apply or_congr_right
    constructor
    · rintro (⟨c, hc, rfl⟩ | h)
      · exact ⟨c, [], hc, fun _ h => (nomatch h), rfl⟩
      · rcases Language.mem_mul.mp h with ⟨_, ⟨c, hc, rfl⟩, ds, hds, rfl⟩
        exact ⟨c, ds, hc, (mem_many.mp hds).2, rfl⟩
    · rintro ⟨c, ds, hc, hds, rfl⟩
      by_cases hnil : ds = []
      · exact Or.inl ⟨c, hc, by rw [hnil]⟩
      · exact Or.inr (Language.mem_mul.mpr
          ⟨[c], ⟨c, hc, rfl⟩, ds, mem_many.mpr ⟨hnil, hds⟩, rfl⟩)
  rw [hrest, mem_language_numericRegex]
  constructor
  · rintro (rfl | ⟨c, ds, hc, hds, rfl⟩)
    · exact ⟨Or.inl rfl, isAscii_cons.mpr ⟨by decide, isAscii_nil⟩⟩
    · have hascii : IsAscii ds := fun d hd => toNat_lt_of_isDigit (hds d hd)
      exact ⟨Or.inr ⟨c, ds, hc, (hdigits hascii).mpr hds, rfl⟩,
        isAscii_cons.mpr ⟨toNat_lt_of_isDigit (isDigit_of_isNonzeroDigit hc), hascii⟩⟩
  · rintro ⟨rfl | ⟨c, ds, hc, hds, rfl⟩, hascii⟩
    · exact Or.inl rfl
    · exact Or.inr ⟨c, ds, hc, (hdigits (isAscii_cons.mp hascii).2).mp hds, rfl⟩

theorem mem_alphanumericIdentifier_iff :
    w ∈ alphanumericIdentifier ↔
      (∀ c ∈ w, isIdentifierChar c = true) ∧ ∃ c ∈ w, isNonDigit c = true := by
  have hchar : ∀ {c : Char}, isNonDigit c = true → isIdentifierChar c = true :=
    fun h => isIdentifierChar_iff.mpr (Or.inr h)
  have hsplit : w ∈ alphanumericIdentifier ↔ ∃ u c v, (∀ d ∈ u, isIdentifierChar d = true) ∧
      isNonDigit c = true ∧ (∀ d ∈ v, isIdentifierChar d = true) ∧ w = u ++ c :: v := by
    unfold alphanumericIdentifier
    simp only [Language.mem_add, Language.mem_mul, mem_identifierCharacters]
    constructor
    · rintro (((⟨c, hc, rfl⟩ | ⟨_, ⟨c, hc, rfl⟩, v, hv, rfl⟩) | ⟨u, hu, _, ⟨c, hc, rfl⟩, rfl⟩) |
        ⟨_, ⟨u, hu, _, ⟨c, hc, rfl⟩, rfl⟩, v, hv, rfl⟩)
      · exact ⟨[], c, [], fun _ h => (nomatch h), hc, fun _ h => (nomatch h), rfl⟩
      · exact ⟨[], c, v, fun _ h => (nomatch h), hc, hv.2, rfl⟩
      · exact ⟨u, c, [], hu.2, hc, fun _ h => (nomatch h), rfl⟩
      · exact ⟨u, c, v, hu.2, hc, hv.2, List.append_assoc u [c] v⟩
    · rintro ⟨u, c, v, hu, hc, hv, rfl⟩
      have hone : [c] ∈ one isNonDigit := ⟨c, hc, rfl⟩
      by_cases hnil : u = []
      · rw [hnil]
        by_cases hnil' : v = []
        · rw [hnil']
          exact Or.inl (Or.inl (Or.inl hone))
        · exact Or.inl (Or.inl (Or.inr ⟨[c], hone, v, ⟨hnil', hv⟩, rfl⟩))
      · by_cases hnil' : v = []
        · rw [hnil']
          exact Or.inl (Or.inr ⟨u, ⟨hnil, hu⟩, [c], hone, rfl⟩)
        · exact Or.inr ⟨u ++ [c], ⟨u, ⟨hnil, hu⟩, [c], hone, rfl⟩, v, ⟨hnil', hv⟩,
            List.append_assoc u [c] v⟩
  rw [hsplit]
  constructor
  · rintro ⟨u, c, v, hu, hc, hv, rfl⟩
    exact ⟨List.forall_mem_append.mpr ⟨hu, List.forall_mem_cons.mpr ⟨hchar hc, hv⟩⟩,
      c, List.mem_append_right u List.mem_cons_self, hc⟩
  · rintro ⟨hall, c, hmem, hc⟩
    rcases List.append_of_mem hmem with ⟨u, v, rfl⟩
    rw [List.forall_mem_append, List.forall_mem_cons] at hall
    exact ⟨u, c, v, hall.1, hc, hall.2.2, rfl⟩

theorem exists_digits_append (hall : ∀ c ∈ w, isIdentifierChar c = true)
    (hsome : ∃ c ∈ w, isNonDigit c = true) :
    ∃ ds c cs, (∀ d ∈ ds, d.isDigit = true) ∧ isNonDigit c = true ∧
      (∀ d ∈ cs, isIdentifierChar d = true) ∧ w = ds ++ c :: cs := by
  induction w with
  | nil => exact absurd hsome (by simp)
  | cons c w ih =>
    rw [List.forall_mem_cons] at hall
    by_cases hc : isNonDigit c = true
    · exact ⟨[], c, w, fun _ h => (nomatch h), hc, hall.2, rfl⟩
    · have hsome' : ∃ d ∈ w, isNonDigit d = true := by
        rcases hsome with ⟨d, hd, hnon⟩
        rcases List.mem_cons.mp hd with rfl | hd
        · exact absurd hnon hc
        · exact ⟨d, hd, hnon⟩
      rcases ih hall.2 hsome' with ⟨ds, d, cs, hds, hd, hcs, rfl⟩
      have hdigit := (isIdentifierChar_iff.mp hall.1).resolve_right hc
      exact ⟨c :: ds, d, cs, List.forall_mem_cons.mpr ⟨hdigit, hds⟩, hd, hcs, rfl⟩

theorem mem_prereleaseIdentifier_iff (i : TextInterpreter) :
    w ∈ prereleaseIdentifier ↔ w ∈ (prereleaseIdentifierRegex i).language ∧ IsAscii w := by
  unfold prereleaseIdentifier
  rw [Language.mem_add, mem_numericIdentifier_iff i, mem_alphanumericIdentifier_iff,
    mem_language_prereleaseIdentifierRegex]
  constructor
  · rintro (⟨hall, hsome⟩ | ⟨hnumeric, hascii⟩)
    · rcases exists_digits_append hall hsome with ⟨ds, c, cs, hds, hc, hcs, rfl⟩
      exact ⟨Or.inr ⟨ds, c, cs, fun d hd => isDecimal_of_isDigit i (hds d hd), hc, hcs, rfl⟩,
        fun d hd => toNat_lt_of_isIdentifierChar (hall d hd)⟩
    · exact ⟨Or.inl hnumeric, hascii⟩
  · rintro ⟨hnumeric | ⟨ds, c, cs, hds, hc, hcs, rfl⟩, hascii⟩
    · exact Or.inr ⟨hnumeric, hascii⟩
    · refine Or.inl ⟨?_, c, List.mem_append_right ds List.mem_cons_self, hc⟩
      have hdigit : ∀ d ∈ ds, isIdentifierChar d = true := by
        intro d hd
        have hdecimal := hds d hd
        rw [isDecimal_eq_isDigit i ((isAscii_append.mp hascii).1 d hd)] at hdecimal
        exact isIdentifierChar_iff.mpr (Or.inl hdecimal)
      exact List.forall_mem_append.mpr ⟨hdigit, List.forall_mem_cons.mpr
        ⟨isIdentifierChar_iff.mpr (Or.inr hc), hcs⟩⟩

theorem buildIdentifier_eq : buildIdentifier = identifierRegex.language := by
  ext w
  unfold buildIdentifier digits
  rw [Language.mem_add, mem_alphanumericIdentifier_iff, mem_many, mem_language_identifierRegex]
  constructor
  · rintro (⟨hall, c, hc, -⟩ | ⟨hne, hall⟩)
    · exact ⟨List.ne_nil_of_mem hc, hall⟩
    · exact ⟨hne, fun c hc => isIdentifierChar_iff.mpr (Or.inl (hall c hc))⟩
  · rintro ⟨hne, hall⟩
    by_cases hsome : ∃ c ∈ w, isNonDigit c = true
    · exact Or.inl ⟨hall, hsome⟩
    · refine Or.inr ⟨hne, fun c hc => ?_⟩
      exact (isIdentifierChar_iff.mp (hall c hc)).resolve_right fun h => hsome ⟨c, hc, h⟩

theorem mem_dot_mul_iff {A : Language Char} {r : Regex}
    (hA : ∀ u, u ∈ A ↔ u ∈ r.language ∧ IsAscii u) :
    w ∈ one (fun c => c = '.') * A ↔ w ∈ (Regex.seq (.char '.') r).language ∧ IsAscii w := by
  rw [Language.mem_mul, mem_language_seq]
  constructor
  · rintro ⟨d, hd, u, hu, rfl⟩
    rw [hA] at hu
    rw [mem_one_char.mp hd]
    exact ⟨⟨['.'], mem_language_char.mpr rfl, u, hu.1, rfl⟩,
      isAscii_cons.mpr ⟨by decide, hu.2⟩⟩
  · rintro ⟨⟨d, hd, u, hu, rfl⟩, hascii⟩
    rw [isAscii_append] at hascii
    exact ⟨d, hd, u, (hA u).mpr ⟨hu, hascii.2⟩, rfl⟩

theorem mem_dotSeparated_iff {A : Language Char} {r : Regex}
    (hA : ∀ u, u ∈ A ↔ u ∈ r.language ∧ IsAscii u) :
    w ∈ dotSeparated A ↔ w ∈ (dotted r).language ∧ IsAscii w := by
  have hflatten : ∀ l : List (List Char), IsAscii l.flatten ↔ ∀ u ∈ l, IsAscii u := by
    intro l
    unfold IsAscii
    rw [List.forall_mem_flatten]
  unfold dotSeparated dotted
  rw [Language.mem_mul, mem_language_seq]
  constructor
  · rintro ⟨u, hu, v, hv, rfl⟩
    rcases Language.mem_kstar.mp hv with ⟨l, rfl, hl⟩
    rw [hA] at hu
    refine ⟨⟨u, hu.1, l.flatten, ?_, rfl⟩, isAscii_append.mpr ⟨hu.2, ?_⟩⟩
    · exact Language.mem_kstar.mpr ⟨l, rfl, fun x hx => ((mem_dot_mul_iff hA).mp (hl x hx)).1⟩
    · exact (hflatten l).mpr fun x hx => ((mem_dot_mul_iff hA).mp (hl x hx)).2
  · rintro ⟨⟨u, hu, v, hv, rfl⟩, hascii⟩
    rcases Language.mem_kstar.mp hv with ⟨l, rfl, hl⟩
    rw [isAscii_append, hflatten] at hascii
    refine ⟨u, (hA u).mpr ⟨hu, hascii.1⟩, l.flatten, ?_, rfl⟩
    exact Language.mem_kstar.mpr
      ⟨l, rfl, fun x hx => (mem_dot_mul_iff hA).mpr ⟨hl x hx, hascii.2 x hx⟩⟩

theorem mem_versionCore_iff :
    w ∈ versionCore ↔ ∃ major ∈ numericIdentifier, ∃ minor ∈ numericIdentifier,
      ∃ patch ∈ numericIdentifier, w = major ++ '.' :: (minor ++ '.' :: patch) := by
  unfold versionCore
  simp only [Language.mem_mul, mem_one_char]
  constructor
  · rintro ⟨major, hmajor, _, ⟨_, rfl, _, ⟨minor, hminor, _, ⟨_, rfl, patch, hpatch, rfl⟩, rfl⟩,
      rfl⟩, rfl⟩
    exact ⟨major, hmajor, minor, hminor, patch, hpatch, rfl⟩
  · rintro ⟨major, hmajor, minor, hminor, patch, hpatch, rfl⟩
    exact ⟨major, hmajor, _, ⟨_, rfl, _, ⟨minor, hminor, _, ⟨_, rfl, patch, hpatch, rfl⟩, rfl⟩,
      rfl⟩, rfl⟩

/-- A version of the grammar, by its sections. -/
theorem mem_validSemver_iff_sections :
    w ∈ validSemver ↔ ∃ core ∈ versionCore, ∃ prerelease build : Option (List Char),
      (∀ u ∈ prerelease, u ∈ dotSeparated prereleaseIdentifier) ∧
        (∀ u ∈ build, u ∈ dotSeparated buildIdentifier) ∧
        w = core ++ (sectionText '-' prerelease ++ sectionText '+' build) := by
  unfold validSemver
  simp only [Language.mem_add]
  constructor
  · rintro (((hw | hw) | hw) | hw)
    · exact ⟨w, hw, none, none, fun _ h => (nomatch h), fun _ h => (nomatch h),
        (List.append_nil w).symm⟩
    · rcases Language.mem_mul.mp hw with ⟨core, hcore, v, hv, rfl⟩
      rcases mem_introduced.mp hv with ⟨u, hu, rfl⟩
      refine ⟨core, hcore, some u, none, ?_, fun _ h => (nomatch h), ?_⟩
      · rintro _ ⟨rfl⟩
        exact hu
      · show core ++ '-' :: u = core ++ ('-' :: u ++ [])
        rw [List.append_nil]
    · rcases Language.mem_mul.mp hw with ⟨core, hcore, v, hv, rfl⟩
      rcases mem_introduced.mp hv with ⟨u, hu, rfl⟩
      refine ⟨core, hcore, none, some u, fun _ h => (nomatch h), ?_, rfl⟩
      rintro _ ⟨rfl⟩
      exact hu
    · rcases Language.mem_mul.mp hw with ⟨core, hcore, v, hv, rfl⟩
      rcases Language.mem_mul.mp hv with ⟨v₁, hv₁, v₂, hv₂, rfl⟩
      rcases mem_introduced.mp hv₁ with ⟨u₁, hu₁, rfl⟩
      rcases mem_introduced.mp hv₂ with ⟨u₂, hu₂, rfl⟩
      refine ⟨core, hcore, some u₁, some u₂, ?_, ?_, rfl⟩
      · rintro _ ⟨rfl⟩
        exact hu₁
      · rintro _ ⟨rfl⟩
        exact hu₂
  · rintro ⟨core, hcore, prerelease, build, hprerelease, hbuild, rfl⟩
    cases prerelease with
    | none =>
      cases build with
      | none =>
        refine Or.inl (Or.inl (Or.inl ?_))
        show core ++ [] ∈ versionCore
        rwa [List.append_nil]
      | some u =>
        exact Or.inl (Or.inr (Language.mem_mul.mpr
          ⟨core, hcore, _, mem_introduced.mpr ⟨u, hbuild u rfl, rfl⟩, rfl⟩))
    | some u =>
      have hminus : '-' :: u ∈ introduced '-' (dotSeparated prereleaseIdentifier) :=
        mem_introduced.mpr ⟨u, hprerelease u rfl, rfl⟩
      cases build with
      | none =>
        refine Or.inl (Or.inl (Or.inr (Language.mem_mul.mpr ⟨core, hcore, _, hminus, ?_⟩)))
        show core ++ '-' :: u = core ++ ('-' :: u ++ [])
        rw [List.append_nil]
      | some v =>
        exact Or.inr (Language.mem_mul.mpr ⟨core, hcore, _, Language.mem_mul.mpr
          ⟨_, hminus, _, mem_introduced.mpr ⟨v, hbuild v rfl, rfl⟩, rfl⟩, rfl⟩)

theorem isAscii_sectionText {sign : Char} (hsign : sign.toNat < 128) {o : Option (List Char)} :
    IsAscii (sectionText sign o) ↔ ∀ u ∈ o, IsAscii u := by
  cases o with
  | none => exact ⟨fun _ _ h => (nomatch h), fun _ => isAscii_nil⟩
  | some u =>
    show IsAscii (sign :: u) ↔ _
    rw [isAscii_cons]
    constructor
    · rintro ⟨-, hu⟩ _ ⟨rfl⟩
      exact hu
    · exact fun h => ⟨hsign, h u rfl⟩

theorem isAscii_text_iff {p : SemverParts} :
    IsAscii p.text ↔ IsAscii p.major ∧ IsAscii p.minor ∧ IsAscii p.patch ∧
      (∀ u ∈ p.prerelease, IsAscii u) ∧ ∀ u ∈ p.build, IsAscii u := by
  have hdot : ('.').toNat < 128 := by decide
  unfold SemverParts.text
  rw [isAscii_append, isAscii_cons, isAscii_append, isAscii_cons, isAscii_append, isAscii_append,
    isAscii_sectionText (by decide), isAscii_sectionText (by decide)]
  simp only [hdot, true_and]

/-- A version of the grammar is a text of ASCII that the pattern of the parser takes. -/
theorem mem_validSemver_iff (i : TextInterpreter) :
    w ∈ validSemver ↔ ∃ p : SemverParts, p.Valid i ∧ w = p.text ∧ IsAscii w := by
  have hbuildIdentifier : ∀ u, u ∈ buildIdentifier ↔ u ∈ identifierRegex.language ∧ IsAscii u := by
    intro u
    rw [buildIdentifier_eq, mem_language_identifierRegex]
    exact ⟨fun h => ⟨h, fun c hc => toNat_lt_of_isIdentifierChar (h.2 c hc)⟩, fun h => h.1⟩
  have hprereleaseIdentifier := fun u => @mem_prereleaseIdentifier_iff u i
  rw [mem_validSemver_iff_sections]
  constructor
  · rintro ⟨core, hcore, prerelease, build, hprerelease, hbuild, rfl⟩
    rcases mem_versionCore_iff.mp hcore with
      ⟨major, hmajor, minor, hminor, patch, hpatch, rfl⟩
    rw [mem_numericIdentifier_iff i] at hmajor hminor hpatch
    simp only [mem_dotSeparated_iff hprereleaseIdentifier] at hprerelease
    simp only [mem_dotSeparated_iff hbuildIdentifier] at hbuild
    have htext : major ++ '.' :: (minor ++ '.' :: patch) ++
        (sectionText '-' prerelease ++ sectionText '+' build) =
          SemverParts.text ⟨major, minor, patch, prerelease, build⟩ := by
      unfold SemverParts.text
      simp
    refine ⟨⟨major, minor, patch, prerelease, build⟩, ⟨hmajor.1, hminor.1, hpatch.1,
      fun u hu => (hprerelease u hu).1, fun u hu => (hbuild u hu).1⟩, htext, ?_⟩
    rw [htext, isAscii_text_iff]
    exact ⟨hmajor.2, hminor.2, hpatch.2, fun u hu => (hprerelease u hu).2,
      fun u hu => (hbuild u hu).2⟩
  · rintro ⟨p, hp, rfl, hascii⟩
    rw [isAscii_text_iff] at hascii
    rcases hascii with ⟨hmajor, hminor, hpatch, hprerelease, hbuild⟩
    refine ⟨_, mem_versionCore_iff.mpr
      ⟨p.major, (mem_numericIdentifier_iff i).mpr ⟨hp.major, hmajor⟩,
        p.minor, (mem_numericIdentifier_iff i).mpr ⟨hp.minor, hminor⟩,
        p.patch, (mem_numericIdentifier_iff i).mpr ⟨hp.patch, hpatch⟩, rfl⟩,
      p.prerelease, p.build, ?_, ?_, ?_⟩
    · exact fun u hu =>
        (mem_dotSeparated_iff hprereleaseIdentifier).mpr ⟨hp.prerelease u hu, hprerelease u hu⟩
    · exact fun u hu => (mem_dotSeparated_iff hbuildIdentifier).mpr ⟨hp.build u hu, hbuild u hu⟩
    · unfold SemverParts.text
      simp

end

end Bnf

end OmnibaseCore.SemVer
