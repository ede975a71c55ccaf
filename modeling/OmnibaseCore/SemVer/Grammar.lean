import OmnibaseCore.Regex.Language
import OmnibaseCore.SemVer.Model

/-!
# What the patterns of versions take

The pattern of the parser takes a text apart in one way at most (`SemverParts.text_injective`),
because each of its pieces ends where a character comes that cannot belong to it. So what
the groups hold can be read off the text (`exists_parts_of_matchPrefix`).
-/

namespace OmnibaseCore.SemVer

open Regex

/-! ## Characters -/

section
variable (i : TextInterpreter)

variable {c : Char}

theorem isDecimal_eq_isDigit (h : c.toNat < 128) : i.isDecimal c = c.isDigit := by
  unfold TextInterpreter.isDecimal
  rw [i.decimal_ascii c h]
  split_ifs with hdigit
  · rw [hdigit]
    rfl
  · rw [Bool.not_eq_true] at hdigit
    rw [hdigit]
    rfl

theorem isDecimal_of_isDigit (h : c.isDigit = true) : i.isDecimal c = true := by
  have hascii : c.toNat < 128 := by
    simp only [Char.isDigit, Bool.and_eq_true, decide_eq_true_eq] at h
    have := UInt32.le_iff_toNat_le.mp h.2
    show c.val.toNat < 128
    exact lt_of_le_of_lt this (by decide)
  rw [isDecimal_eq_isDigit i hascii, h]

theorem not_isDecimal_of_mem (h : c ∈ ['.', '-', '+', '\n']) : i.isDecimal c = false := by
  simp only [List.mem_cons, List.not_mem_nil, or_false] at h
  rcases h with rfl | rfl | rfl | rfl
  · exact isDecimal_eq_isDigit i (by decide)
  · exact isDecimal_eq_isDigit i (by decide)
  · exact isDecimal_eq_isDigit i (by decide)
  · exact isDecimal_eq_isDigit i (by decide)

theorem isDigit_of_isNonzeroDigit (h : isNonzeroDigit c = true) : c.isDigit = true := by
  unfold isNonzeroDigit at h
  rw [Bool.and_eq_true] at h
  exact h.1

theorem isIdentifierChar_iff :
    isIdentifierChar c = true ↔ c.isDigit = true ∨ isNonDigit c = true := by
  unfold isIdentifierChar isNonDigit Char.isAlphanum
  rw [Bool.or_eq_true, Bool.or_eq_true, Bool.or_eq_true, or_assoc, or_left_comm]

/-! ## The languages of the patterns -/

variable {i} {w : List Char}

theorem mem_language_numericRegex :
    w ∈ (numericRegex i).language ↔ w = ['0'] ∨
      ∃ c ds, isNonzeroDigit c = true ∧ (∀ d ∈ ds, i.isDecimal d = true) ∧ w = c :: ds := by
  unfold numericRegex
  rw [mem_language_alt, mem_language_char, mem_language_seq]
  apply or_congr_right
  constructor
  · rintro ⟨u, ⟨c, hc, rfl⟩, ds, hds, rfl⟩
    exact ⟨c, ds, hc, mem_language_star_chars.mp hds, rfl⟩
  · rintro ⟨c, ds, hc, hds, rfl⟩
    exact ⟨[c], ⟨c, hc, rfl⟩, ds, mem_language_star_chars.mpr hds, rfl⟩

theorem isDecimal_of_mem_numericRegex (h : w ∈ (numericRegex i).language) :
    ∀ c ∈ w, i.isDecimal c = true := by
  rcases mem_language_numericRegex.mp h with rfl | ⟨c, ds, hc, hds, rfl⟩
  · intro c hc
    rw [List.mem_singleton.mp hc]
    exact isDecimal_of_isDigit i rfl
  · rw [List.forall_mem_cons]
    exact ⟨isDecimal_of_isDigit i (isDigit_of_isNonzeroDigit hc), hds⟩

theorem mem_language_identifierRegex :
    w ∈ identifierRegex.language ↔ w ≠ [] ∧ ∀ c ∈ w, isIdentifierChar c = true :=
  mem_language_plus_chars

theorem mem_language_prereleaseIdentifierRegex :
    w ∈ (prereleaseIdentifierRegex i).language ↔ w ∈ (numericRegex i).language ∨
      ∃ ds c cs, (∀ d ∈ ds, i.isDecimal d = true) ∧ isNonDigit c = true ∧
        (∀ d ∈ cs, isIdentifierChar d = true) ∧ w = ds ++ c :: cs := by
  unfold prereleaseIdentifierRegex
  rw [mem_language_alt, mem_language_seq]
  apply or_congr_right
  constructor
  · rintro ⟨ds, hds, v, hv, rfl⟩
    rcases mem_language_seq.mp hv with ⟨u, ⟨c, hc, rfl⟩, cs, hcs, rfl⟩
    exact ⟨ds, c, cs, mem_language_star_chars.mp hds, hc, mem_language_star_chars.mp hcs, rfl⟩
  · rintro ⟨ds, c, cs, hds, hc, hcs, rfl⟩
    refine ⟨ds, mem_language_star_chars.mpr hds, c :: cs, ?_, rfl⟩
    exact mem_language_seq.mpr ⟨[c], ⟨c, hc, rfl⟩, cs, mem_language_star_chars.mpr hcs, rfl⟩

variable {r : Regex}

theorem mem_language_dotted : w ∈ (dotted r).language ↔
      ∃ l, l ≠ [] ∧ (∀ u ∈ l, u ∈ r.language) ∧ w = ['.'].intercalate l := by
  have hjoin : ∀ (u : List Char) (l : List (List Char)),
      ['.'].intercalate (u :: l) = u ++ (l.map fun v => '.' :: v).flatten := by
    intro u l
    induction l generalizing u with
    | nil => rw [List.intercalate_singleton, List.map_nil, List.flatten_nil, List.append_nil]
    | cons v l ih =>
      rw [List.intercalate_cons_cons, ih, List.map_cons, List.flatten_cons]
      simp
  unfold dotted
  rw [mem_language_seq]
  constructor
  · rintro ⟨u, hu, v, hv, rfl⟩
    rcases Language.mem_kstar.mp hv with ⟨l, rfl, hl⟩
    have hpieces : ∃ l' : List (List Char),
        l = l'.map (fun v => '.' :: v) ∧ ∀ v ∈ l', v ∈ r.language := by
      clear hv
      induction l with
      | nil => exact ⟨[], rfl, fun _ h => nomatch h⟩
      | cons x l ih =>
        rw [List.forall_mem_cons] at hl
        rcases ih hl.2 with ⟨l', rfl, hl'⟩
        rcases mem_language_seq.mp hl.1 with ⟨d, hd, v, hv, rfl⟩
        rw [mem_language_char.mp hd]
        exact ⟨v :: l', rfl, List.forall_mem_cons.mpr ⟨hv, hl'⟩⟩
    rcases hpieces with ⟨l', rfl, hl'⟩
    exact ⟨u :: l', List.cons_ne_nil u l', List.forall_mem_cons.mpr ⟨hu, hl'⟩, (hjoin u l').symm⟩
  · rintro ⟨l, hne, hl, rfl⟩
    cases l with
    | nil => exact absurd rfl hne
    | cons u l =>
      rw [List.forall_mem_cons] at hl
      refine ⟨u, hl.1, _, ?_, (hjoin u l).symm⟩
      refine Language.mem_kstar.mpr ⟨_, rfl, fun x hx => ?_⟩
      rcases List.mem_map.mp hx with ⟨v, hv, rfl⟩
      exact mem_language_seq.mpr ⟨['.'], mem_language_char.mpr rfl, v, hl.2 v hv, rfl⟩

theorem ne_nil_of_mem_dotted (hr : ∀ u ∈ r.language, u ≠ []) (hw : w ∈ (dotted r).language) :
    w ≠ [] := by
  rcases mem_language_seq.mp hw with ⟨u, hu, v, -, rfl⟩
  exact List.append_ne_nil_of_left_ne_nil (hr u hu) v

theorem ne_nil_of_mem_prereleaseIdentifierRegex
    (hw : w ∈ (prereleaseIdentifierRegex i).language) : w ≠ [] := by
  rcases mem_language_prereleaseIdentifierRegex.mp hw with hw | ⟨ds, c, cs, -, -, -, rfl⟩
  · rcases mem_language_numericRegex.mp hw with rfl | ⟨c, ds, -, -, rfl⟩
    · exact List.cons_ne_nil _ _
    · exact List.cons_ne_nil _ _
  · simp

/-! ## The digits of a number -/

theorem decimal_digitChar (i : TextInterpreter) {d : ℕ} (hd : d < 10) :
    i.decimal (Nat.digitChar d) = some d := by
  interval_cases d <;> exact i.decimal_ascii _ (by decide)

@[simp] theorem digitsValue_toDigits (i : TextInterpreter) (n : ℕ) :
    digitsValue i (Nat.toDigits 10 n) = n := by
  induction n using Nat.strong_induction_on with
  | _ n ih =>
    unfold digitsValue at ih ⊢
    by_cases hn : n < 10
    · rw [Nat.toDigits_of_lt_base hn]
      simp [decimal_digitChar i hn]
    · have hdigit : n % 10 < 10 := Nat.mod_lt n (by decide)
      rw [Nat.toDigits_of_base_le (by decide) (Nat.not_lt.mp hn), List.foldl_append,
        ih (n / 10) (by omega), List.foldl_cons, List.foldl_nil, decimal_digitChar i hdigit]
      show 10 * (n / 10) + n % 10 = n
      omega

theorem toDigits_mem_numericRegex (n : ℕ) :
    Nat.toDigits 10 n ∈ (numericRegex i).language := by
  induction n using Nat.strong_induction_on with
  | _ n ih =>
    rw [mem_language_numericRegex]
    by_cases hn : n < 10
    · rw [Nat.toDigits_of_lt_base hn]
      by_cases hzero : n = 0
      · rw [hzero]
        exact Or.inl rfl
      · refine Or.inr ⟨Nat.digitChar n, [], ?_, fun _ h => (nomatch h), rfl⟩
        interval_cases n <;> first | omega | decide
    · have hlast : i.isDecimal (Nat.digitChar (n % 10)) = true := by
        unfold TextInterpreter.isDecimal
        rw [decimal_digitChar i (Nat.mod_lt n (by decide))]
        rfl
      rw [Nat.toDigits_of_base_le (by decide) (Nat.not_lt.mp hn)]
      rcases mem_language_numericRegex.mp (ih (n / 10) (by omega)) with hzero | ⟨c, ds, hc, hds, h⟩
      · -- a number without its last digit is not zero
        have hvalue := digitsValue_toDigits i (n / 10)
        rw [hzero] at hvalue
        have hnone : digitsValue i ['0'] = 0 := by
          unfold digitsValue
          rw [List.foldl_cons, List.foldl_nil, i.decimal_ascii '0' (by decide)]
          rfl
        omega
      · refine Or.inr ⟨c, ds ++ [Nat.digitChar (n % 10)], hc, ?_, by rw [h, List.cons_append]⟩
        intro d hd
        rcases List.mem_append.mp hd with hd | hd
        · exact hds d hd
        · rwa [List.mem_singleton.mp hd]

theorem intOfDigits_toDigits (i : TextInterpreter) {n : ℕ}
    (h : (Nat.toDigits 10 n).length ≤ intMaxStrDigits) :
    intOfDigits i (String.ofList (Nat.toDigits 10 n)) = .ok n := by
  have hstrip : strip (String.ofList (Nat.toDigits 10 n)) = String.ofList (Nat.toDigits 10 n) := by
    apply strip_eq_self
    intro c hc
    rw [String.toList_ofList] at hc
    exact isSpace_of_isDigit (Nat.isDigit_of_mem_toDigits (by decide) (by decide) hc)
  unfold intOfDigits
  rw [hstrip, String.toList_ofList]
  dsimp only
  rw [if_neg (Nat.not_lt.mpr h), digitsValue_toDigits]

/-! ## The parts of a version -/

/-- What the groups of `_SEMVER_PATTERN` take. -/
structure SemverParts where
  major : List Char
  minor : List Char
  patch : List Char
  prerelease : Option (List Char)
  build : Option (List Char)

namespace SemverParts

def text (p : SemverParts) : List Char :=
  p.major ++ '.' :: (p.minor ++ '.' :: (p.patch ++
    (sectionText '-' p.prerelease ++ sectionText '+' p.build)))

def groups (p : SemverParts) : List (String × String) :=
  sectionGroups "build" p.build ++ (sectionGroups "prerelease" p.prerelease ++
    [("patch", String.ofList p.patch), ("minor", String.ofList p.minor),
      ("major", String.ofList p.major)])

section
variable (p : SemverParts)

theorem lookup_major : p.groups.lookup "major" = some (String.ofList p.major) := by
  rcases p with ⟨_, _, _, _ | _, _ | _⟩ <;> rfl

theorem lookup_minor : p.groups.lookup "minor" = some (String.ofList p.minor) := by
  rcases p with ⟨_, _, _, _ | _, _ | _⟩ <;> rfl

theorem lookup_patch : p.groups.lookup "patch" = some (String.ofList p.patch) := by
  rcases p with ⟨_, _, _, _ | _, _ | _⟩ <;> rfl

theorem lookup_prerelease : p.groups.lookup "prerelease" = p.prerelease.map String.ofList := by
  rcases p with ⟨_, _, _, _ | _, _ | _⟩ <;> rfl

theorem lookup_build : p.groups.lookup "build" = p.build.map String.ofList := by
  rcases p with ⟨_, _, _, _ | _, _ | _⟩ <;> rfl

end

/-- Every part is taken by the pattern of its group. -/
structure Valid (i : TextInterpreter) (p : SemverParts) : Prop where
  major : p.major ∈ (numericRegex i).language
  minor : p.minor ∈ (numericRegex i).language
  patch : p.patch ∈ (numericRegex i).language
  prerelease : ∀ w ∈ p.prerelease, w ∈ (dotted (prereleaseIdentifierRegex i)).language
  build : ∀ w ∈ p.build, w ∈ (dotted identifierRegex).language

end SemverParts

theorem plain_numericRegex : (numericRegex i).Plain := ⟨trivial, trivial, trivial⟩

theorem plain_identifierRegex : identifierRegex.Plain := ⟨trivial, trivial⟩

theorem plain_prereleaseIdentifierRegex : (prereleaseIdentifierRegex i).Plain :=
  ⟨plain_numericRegex, trivial, trivial, trivial⟩

theorem plain_dotted (hr : r.Plain) : (dotted r).Plain := ⟨hr, trivial, hr⟩

variable {s : String}

/-- What the pattern matches is the text of valid parts. -/
theorem exists_parts_of_matchPrefix {found : Place}
    (h : (semverPattern i).matchPrefix s = some found) :
    ∃ p : SemverParts, p.Valid i ∧ found.groups = p.groups ∧
      (s.toList = p.text ∨ s.toList = p.text ++ ['\n']) := by
  unfold matchPrefix semverPattern at h
  rw [run_seq, run_start rfl, run_seq] at h
  rcases exists_of_run_group plain_numericRegex h with ⟨major, hmajor, rest₁, h₁, _, h⟩
  rw [run_seq] at h
  rcases exists_of_run_char h with ⟨rest₂, h₂, _, h⟩
  rw [run_seq] at h
  rcases exists_of_run_group plain_numericRegex h with ⟨minor, hminor, rest₃, h₃, _, h⟩
  rw [run_seq] at h
  rcases exists_of_run_char h with ⟨rest₄, h₄, _, h⟩
  rw [run_seq] at h
  rcases exists_of_run_group plain_numericRegex h with ⟨patch, hpatch, rest₅, h₅, _, h⟩
  rw [run_seq] at h
  rcases exists_of_run_section (plain_dotted plain_prereleaseIdentifierRegex) h with
    ⟨prerelease, hprerelease, rest₆, h₆, _, h⟩
  rw [run_seq] at h
  rcases exists_of_run_section (plain_dotted plain_identifierRegex) h with
    ⟨build, hbuild, rest, h₇, _, h⟩
  rw [run_finish] at h
  split_ifs at h with hend
  dsimp only at h₁ h₂ h₃ h₄ h₅ h₆ h₇ hend
  refine ⟨⟨major, minor, patch, prerelease, build⟩,
    ⟨hmajor, hminor, hpatch, hprerelease, hbuild⟩, ?_, ?_⟩
  · rw [← Option.some.inj h]
    rfl
  · have htext : s.toList = major ++ '.' :: (minor ++ '.' :: (patch ++
        (sectionText '-' prerelease ++ (sectionText '+' build ++ rest)))) := by
      rw [h₁, h₂, h₃, h₄, h₅, h₆, h₇]
    unfold SemverParts.text
    rw [htext]
    rcases hend with rfl | rfl
    · simp
    · simp

variable {u : List Char}

theorem isSome_matchPrefix {p : SemverParts} (hp : p.Valid i) (hu : u = [] ∨ u = ['\n'])
    (h : s.toList = p.text ++ u) : ((semverPattern i).matchPrefix s).isSome = true := by
  have htext : s.toList = p.major ++ '.' :: (p.minor ++ '.' :: (p.patch ++
      (sectionText '-' p.prerelease ++ (sectionText '+' p.build ++ u)))) := by
    rw [h]
    unfold SemverParts.text
    simp
  unfold matchPrefix semverPattern
  rw [run_seq, run_start rfl, run_seq]
  refine isSome_run_group plain_numericRegex hp.major htext fun _ => ?_
  rw [run_seq]
  refine isSome_run_char rfl fun _ => ?_
  rw [run_seq]
  refine isSome_run_group plain_numericRegex hp.minor rfl fun _ => ?_
  rw [run_seq]
  refine isSome_run_char rfl fun _ => ?_
  rw [run_seq]
  refine isSome_run_group plain_numericRegex hp.patch rfl fun _ => ?_
  rw [run_seq]
  refine isSome_run_section (plain_dotted plain_prereleaseIdentifierRegex) hp.prerelease rfl
    fun _ => ?_
  rw [run_seq]
  refine isSome_run_section (plain_dotted plain_identifierRegex) hp.build rfl fun _ => ?_
  rw [run_finish, if_pos hu]
  rfl

/-! ## The parts of a text are unique -/

def isPrereleaseChar (i : TextInterpreter) (c : Char) : Bool :=
  i.isDecimal c || isIdentifierChar c || c = '.'

def isBuildChar (c : Char) : Bool := isIdentifierChar c || c = '.'

theorem of_mem_dotted {p : Char → Bool} (hdot : p '.' = true)
    (hr : ∀ u ∈ r.language, ∀ c ∈ u, p c = true) (hw : w ∈ (dotted r).language) :
    ∀ c ∈ w, p c = true := by
  rcases mem_language_dotted.mp hw with ⟨l, -, hl, rfl⟩
  intro c hc
  rcases of_mem_intercalate hc with rfl | ⟨u, hu, hcu⟩
  · exact hdot
  · exact hr u (hl u hu) c hcu

theorem isBuildChar_of_mem (hw : w ∈ (dotted identifierRegex).language) :
    ∀ c ∈ w, isBuildChar c = true := by
  apply of_mem_dotted rfl _ hw
  intro u hu c hc
  unfold isBuildChar
  rw [(mem_language_identifierRegex.mp hu).2 c hc, Bool.true_or]

theorem isDecimal_or_isIdentifierChar_of_mem (hw : w ∈ (prereleaseIdentifierRegex i).language) :
    ∀ c ∈ w, (i.isDecimal c || isIdentifierChar c) = true := by
  intro c hc
  rw [Bool.or_eq_true]
  rcases mem_language_prereleaseIdentifierRegex.mp hw with hw | ⟨ds, d, cs, hds, hd, hcs, rfl⟩
  · exact Or.inl (isDecimal_of_mem_numericRegex hw c hc)
  · rcases List.mem_append.mp hc with hc | hc
    · exact Or.inl (hds c hc)
    · rcases List.mem_cons.mp hc with rfl | hc
      · exact Or.inr (isIdentifierChar_iff.mpr (Or.inr hd))
      · exact Or.inr (hcs c hc)

theorem isPrereleaseChar_of_mem (hw : w ∈ (dotted (prereleaseIdentifierRegex i)).language) :
    ∀ c ∈ w, isPrereleaseChar i c = true := by
  apply of_mem_dotted _ _ hw
  · unfold isPrereleaseChar
    rw [decide_eq_true rfl, Bool.or_true]
  · intro u hu c hc
    unfold isPrereleaseChar
    rw [isDecimal_or_isIdentifierChar_of_mem hu c hc, Bool.true_or]

theorem of_mem_head?_end (hu : u = [] ∨ u = ['\n']) : ∀ c ∈ u.head?, c = '\n' := by
  rcases hu with rfl | rfl
  · exact fun _ h => (nomatch h)
  · exact fun c hc => (Option.mem_some_iff.mp hc).symm

/-- A text has at most one reading as a version. -/
theorem SemverParts.text_injective {p q : SemverParts} (hp : p.Valid i) (hq : q.Valid i)
    {u v : List Char} (hu : u = [] ∨ u = ['\n']) (hv : v = [] ∨ v = ['\n'])
    (h : p.text ++ u = q.text ++ v) : p = q := by
  have hlineFeed : isBuildChar '\n' = false ∧ '\n' ≠ '+' := by decide
  -- what follows a section begins with the sign of the next one, or ends the text
  have hsection : ∀ {c : Char} {o : Option (List Char)} {t : List Char},
      ∀ d ∈ (sectionText c o ++ t).head?, d = c ∨ d ∈ t.head? := by
    intro c o t d hd
    cases o with
    | none => exact Or.inr hd
    | some w => exact Or.inl (Option.mem_some_iff.mp hd).symm
  have hplus : ∀ (o : Option (List Char)) {t : List Char}, t = [] ∨ t = ['\n'] →
      ∀ d ∈ (sectionText '+' o ++ t).head?, isPrereleaseChar i d = false ∧ d ≠ '-' := by
    intro o t ht d hd
    have hd' : d ∈ ['.', '-', '+', '\n'] ∧ (d = '+' ∨ d = '\n') := by
      rcases hsection d hd with rfl | hd
      · decide
      · rw [of_mem_head?_end ht d hd]
        decide
    unfold isPrereleaseChar
    rw [not_isDecimal_of_mem i hd'.1]
    rcases hd'.2 with rfl | rfl
    · decide
    · decide
  have hminus : ∀ (o o' : Option (List Char)) {t : List Char}, t = [] ∨ t = ['\n'] →
      ∀ d ∈ (sectionText '-' o ++ (sectionText '+' o' ++ t)).head?, i.isDecimal d = false := by
    intro o o' t ht d hd
    apply not_isDecimal_of_mem
    rcases hsection d hd with rfl | hd
    · decide
    · rcases hsection d hd with rfl | hd
      · decide
      · rw [of_mem_head?_end ht d hd]
        decide
  have hdot : ∀ t : List Char, ∀ d ∈ ('.' :: t).head?, i.isDecimal d = false := by
    intro t d hd
    rw [← Option.mem_some_iff.mp hd]
    exact not_isDecimal_of_mem i (by decide)
  have htext : ∀ (p : SemverParts) (t : List Char), p.text ++ t =
      p.major ++ '.' :: (p.minor ++ '.' :: (p.patch ++
        (sectionText '-' p.prerelease ++ (sectionText '+' p.build ++ t)))) := by
    intro p t
    unfold SemverParts.text
    simp
  rw [htext, htext] at h
  rcases append_inj_of_class (isDecimal_of_mem_numericRegex hp.major)
    (isDecimal_of_mem_numericRegex hq.major) (hdot _) (hdot _) h with ⟨hmajor, h⟩
  rcases append_inj_of_class (isDecimal_of_mem_numericRegex hp.minor)
    (isDecimal_of_mem_numericRegex hq.minor) (hdot _) (hdot _) (List.tail_eq_of_cons_eq h) with
    ⟨hminor, h⟩
  rcases append_inj_of_class (isDecimal_of_mem_numericRegex hp.patch)
    (isDecimal_of_mem_numericRegex hq.patch) (hminus _ _ hu) (hminus _ _ hv)
    (List.tail_eq_of_cons_eq h) with ⟨hpatch, h⟩
  rcases sectionText_append_inj (fun w hw => isPrereleaseChar_of_mem (hp.prerelease w hw))
    (fun w hw => isPrereleaseChar_of_mem (hq.prerelease w hw)) (hplus _ hu) (hplus _ hv) h with
    ⟨hprerelease, h⟩
  rcases sectionText_append_inj (fun w hw => isBuildChar_of_mem (hp.build w hw))
    (fun w hw => isBuildChar_of_mem (hq.build w hw))
    (fun d hd => of_mem_head?_end hu d hd ▸ hlineFeed)
    (fun d hd => of_mem_head?_end hv d hd ▸ hlineFeed) h with ⟨hbuild, -⟩
  cases p
  cases q
  dsimp only at hmajor hminor hpatch hprerelease hbuild
  rw [hmajor, hminor, hpatch, hprerelease, hbuild]

theorem matchPrefix_text {p : SemverParts} (hp : p.Valid i) (hu : u = [] ∨ u = ['\n'])
    (h : s.toList = p.text ++ u) :
    ∃ found, (semverPattern i).matchPrefix s = some found ∧ found.groups = p.groups := by
  rcases Option.isSome_iff_exists.mp (isSome_matchPrefix hp hu h) with ⟨found, hfound⟩
  rcases exists_parts_of_matchPrefix hfound with ⟨q, hq, hgroups, hs⟩
  have hpq : p = q := by
    rcases hs with hs | hs
    · apply SemverParts.text_injective hp hq hu (Or.inl rfl)
      rw [← h, hs, List.append_nil]
    · apply SemverParts.text_injective hp hq hu (Or.inr rfl)
      rw [← h, hs]
  exact ⟨found, hfound, by rw [hgroups, hpq]⟩

end

end OmnibaseCore.SemVer
