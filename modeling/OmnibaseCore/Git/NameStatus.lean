import OmnibaseCore.Python.Lines

/-!
# Differences of trees, as `git diff --name-status` prints them

A tree gives the files at its paths. `Describes` says which lists of changes describe the
difference of two trees, with renames and copies found. `nameStatusText` is what is printed: one
line for a change, the status and the paths with tabs between them, and a path that is not plain
in quotation marks (`core.quotePath`).
-/

namespace OmnibaseCore.Git

/-! ## Trees -/

inductive FileMode
  | regular
  | executable
  | symlink
  | gitlink
deriving DecidableEq

inductive FileType
  | file
  | link
  | module
deriving DecidableEq

def FileMode.type : FileMode → FileType
  | .regular => .file
  | .executable => .file
  | .symlink => .link
  | .gitlink => .module

structure File (Object : Type) where
  mode : FileMode
  object : Object
deriving DecidableEq

abbrev Tree (Object : Type) := String → Option (File Object)

/-- One change, with the paths it is printed with. A rename or a copy has a score. -/
inductive Change
  | added (path : String)
  | modified (path : String)
  | deleted (path : String)
  | renamed (score : ℕ) (old new : String)
  | copied (score : ℕ) (old new : String)
  | typeChanged (path : String)

namespace Change

def path : Change → String
  | added path => path
  | modified path => path
  | deleted path => path
  | renamed _ _ new => new
  | copied _ _ new => new
  | typeChanged path => path

def letter : Change → Char
  | added _ => 'A'
  | modified _ => 'M'
  | deleted _ => 'D'
  | renamed _ _ _ => 'R'
  | copied _ _ _ => 'C'
  | typeChanged _ => 'T'

/-- The path of a file of the base that the change takes away or puts another one in its
place. -/
def altered : Change → Option String
  | added _ => none
  | modified path => some path
  | deleted path => some path
  | renamed _ old _ => some old
  | copied _ _ _ => none
  | typeChanged path => some path

end Change

section
variable {Object : Type} {base head : Tree Object} {changes : List Change}

def Change.Valid (base head : Tree Object) : Change → Prop
  | added path => base path = none ∧ (head path).isSome
  | modified path => ∃ f g, base path = some f ∧ head path = some g ∧ f ≠ g ∧
      f.mode.type = g.mode.type
  | deleted path => (base path).isSome ∧ head path = none
  | renamed _ old new => (base old).isSome ∧ head old = none ∧ base new = none ∧ (head new).isSome
  | copied _ old new => (base old).isSome ∧ base new = none ∧ (head new).isSome
  | typeChanged path => ∃ f g, base path = some f ∧ head path = some g ∧
      f.mode.type ≠ g.mode.type

structure Describes (base head : Tree Object) (changes : List Change) : Prop where
  valid : ∀ c ∈ changes, c.Valid base head
  complete : ∀ path, base path ≠ head path → ∃ c ∈ changes, c.path = path ∨ c.altered = some path

/-- A file of the base is not the same at the head if and only if a change alters it. -/
theorem Describes.alters (h : Describes base head changes) {path : String} {file : File Object}
    (hfile : base path = some file) :
    head path ≠ some file ↔ ∃ c ∈ changes, c.altered = some path := by
  constructor
  · intro hhead
    obtain ⟨c, hc, htouch⟩ := h.complete path (by rw [hfile]; exact hhead.symm)
    refine ⟨c, hc, htouch.elim (fun hpath => ?_) id⟩
    have hvalid := h.valid c hc
    -- the last path of an addition, a rename or a copy is new
    cases c with
    | added p =>
      obtain rfl : p = path := hpath
      rw [hvalid.1] at hfile
      exact nomatch hfile
    | modified p => exact congrArg some hpath
    | deleted p => exact congrArg some hpath
    | renamed score old new =>
      obtain rfl : new = path := hpath
      rw [hvalid.2.2.1] at hfile
      exact nomatch hfile
    | copied score old new =>
      obtain rfl : new = path := hpath
      rw [hvalid.2.1] at hfile
      exact nomatch hfile
    | typeChanged p => exact congrArg some hpath
  · rintro ⟨c, hc, halter⟩ hhead
    have hvalid := h.valid c hc
    cases c with
    | added p => exact nomatch halter
    | modified p =>
      obtain rfl : p = path := Option.some.inj halter
      obtain ⟨f, g, hf, hg, hne, -⟩ := hvalid
      rw [hfile] at hf
      rw [hhead] at hg
      exact hne (Option.some.inj (hf.symm.trans hg))
    | deleted p =>
      obtain rfl : p = path := Option.some.inj halter
      rw [hvalid.2] at hhead
      exact nomatch hhead
    | renamed score old new =>
      obtain rfl : old = path := Option.some.inj halter
      rw [hvalid.2.1] at hhead
      exact nomatch hhead
    | copied score old new => exact nomatch halter
    | typeChanged p =>
      obtain rfl : p = path := Option.some.inj halter
      obtain ⟨f, g, hf, hg, hne⟩ := hvalid
      rw [hfile] at hf
      rw [hhead] at hg
      obtain rfl : f = g := Option.some.inj (hf.symm.trans hg)
      exact hne rfl

theorem Describes.isSome_of_altered (h : Describes base head changes) {c : Change}
    (hc : c ∈ changes) {path : String} (halter : c.altered = some path) :
    (base path).isSome = true := by
  have hvalid := h.valid c hc
  cases c with
  | added p => exact nomatch halter
  | modified p =>
    obtain ⟨f, -, hf, -⟩ := hvalid
    rw [← Option.some.inj halter, hf, Option.isSome_some]
  | deleted p => exact Option.some.inj halter ▸ hvalid.1
  | renamed score old new => exact Option.some.inj halter ▸ hvalid.1
  | copied score old new => exact nomatch halter
  | typeChanged p =>
    obtain ⟨f, -, hf, -⟩ := hvalid
    rw [← Option.some.inj halter, hf, Option.isSome_some]

end

/-! ## Quoted paths -/

def isPrintable (c : Char) : Bool := 0x20 ≤ c.toNat && c.toNat < 0x7f

/-- A character that stands for itself in a path. -/
def isPlain (c : Char) : Bool := isPrintable c && c ≠ '"' && c ≠ '\\'

/-- A path without quotation marks. -/
def PlainPath (path : String) : Prop := ∀ c ∈ path.toList, isPlain c = true

instance (path : String) : Decidable (PlainPath path) :=
  inferInstanceAs (Decidable (∀ c ∈ path.toList, _))

/-- A byte as `\` and three octal digits. -/
def octalEscape (byte : UInt8) : List Char :=
  let n := byte.toNat
  ['\\', Nat.digitChar (n / 64), Nat.digitChar (n / 8 % 8), Nat.digitChar (n % 8)]

/-- The letters behind `\` for the control characters from 7 on, and for two others. -/
def escapeLetters : List (Char × Char) :=
  [('\x07', 'a'), ('\x08', 'b'), ('\t', 't'), ('\n', 'n'), ('\x0b', 'v'), ('\x0c', 'f'),
    ('\r', 'r'), ('"', '"'), ('\\', '\\')]

/-- A character between quotation marks. -/
def quoteChar (c : Char) : List Char :=
  match escapeLetters.lookup c with
  | some letter => ['\\', letter]
  | none => if isPlain c then [c] else (String.utf8EncodeChar c).flatMap octalEscape

def quotePath (path : String) : String :=
  if PlainPath path then path
  else String.ofList ('"' :: path.toList.flatMap quoteChar ++ ['"'])

def threeDigits (n : ℕ) : String :=
  let digits := Nat.toDigits 10 n
  String.ofList (List.replicate (3 - digits.length) '0' ++ digits)

def Change.score : Change → String
  | renamed score _ _ => threeDigits score
  | copied score _ _ => threeDigits score
  | _ => ""

def Change.status (c : Change) : String := String.ofList (c.letter :: c.score.toList)

/-- What a line has between its tabs. -/
def Change.fields : Change → List String
  | renamed score old new => [(renamed score old new).status, quotePath old, quotePath new]
  | copied score old new => [(copied score old new).status, quotePath old, quotePath new]
  | change => [change.status, quotePath change.path]

def Change.line (c : Change) : String := "\t".intercalate c.fields

def nameStatusText (changes : List Change) : String := linesText (changes.map Change.line)

/-! ## What is printed -/

variable {c : Char}

theorem isPrintable_of_isPlain (h : isPlain c = true) : isPrintable c = true := by
  unfold isPlain at h
  simp only [Bool.and_eq_true] at h
  exact h.1.1

theorem isPrintable_of_isDigit (h : c.isDigit = true) : isPrintable c = true := by
  unfold Char.isDigit at h
  unfold isPrintable Char.toNat
  simp only [Bool.and_eq_true, decide_eq_true_eq, ge_iff_le, UInt32.le_iff_toNat_le] at h ⊢
  have hlow : '0'.val.toNat = 48 := rfl
  have hhigh : '9'.val.toNat = 57 := rfl
  omega

theorem isPrintable_octalEscape {byte : UInt8} : ∀ c ∈ octalEscape byte, isPrintable c = true := by
  have hdigit : ∀ n, n < 8 → isPrintable (Nat.digitChar n) = true := by decide
  have hbyte : byte.toNat < 256 := byte.toNat_lt
  intro c hc
  simp only [octalEscape, List.mem_cons, List.not_mem_nil, or_false] at hc
  rcases hc with rfl | rfl | rfl | rfl
  · decide
  all_goals exact hdigit _ (by omega)

theorem isPrintable_quoteChar {d : Char} : ∀ c ∈ quoteChar d, isPrintable c = true := by
  have hletters : ∀ e ∈ escapeLetters, isPrintable e.2 = true := by decide
  intro c hc
  unfold quoteChar at hc
  split at hc
  · rename_i letter hlookup
    have hmem : (d, letter) ∈ escapeLetters := by
      obtain ⟨before, after, hsplit, -⟩ := List.lookup_eq_some_iff.mp hlookup
      rw [hsplit]
      exact List.mem_append_right before List.mem_cons_self
    rcases List.mem_cons.mp hc with rfl | hc
    · decide
    · rw [List.mem_singleton.mp hc]
      exact hletters _ hmem
  · split_ifs at hc with hplain
    · rw [List.mem_singleton.mp hc]
      exact isPrintable_of_isPlain hplain
    · obtain ⟨byte, -, hc⟩ := List.mem_flatMap.mp hc
      exact isPrintable_octalEscape c hc

variable {path : String}

theorem quotePath_of_plain (h : PlainPath path) : quotePath path = path := if_pos h

theorem head?_quotePath (h : ¬ PlainPath path) : (quotePath path).toList.head? = some '"' := by
  unfold quotePath
  rw [if_neg h, String.toList_ofList]
  rfl

theorem isPrintable_quotePath : ∀ c ∈ (quotePath path).toList, isPrintable c = true := by
  intro c hc
  by_cases hplain : PlainPath path
  · rw [quotePath_of_plain hplain] at hc
    exact isPrintable_of_isPlain (hplain c hc)
  · unfold quotePath at hc
    rw [if_neg hplain, String.toList_ofList, List.mem_append, List.mem_cons,
      List.mem_singleton] at hc
    rcases hc with (rfl | hc) | rfl
    · decide
    · obtain ⟨d, -, hc⟩ := List.mem_flatMap.mp hc
      exact isPrintable_quoteChar c hc
    · decide

theorem isDigit_threeDigits {n : ℕ} : ∀ c ∈ (threeDigits n).toList, c.isDigit = true := by
  intro c hc
  unfold threeDigits at hc
  rw [String.toList_ofList, List.mem_append] at hc
  rcases hc with hc | hc
  · rw [List.eq_of_mem_replicate hc]
    decide
  · exact Nat.isDigit_of_mem_toDigits (by decide) (by decide) hc

theorem Change.isPrintable_letter (c : Change) : isPrintable c.letter = true := by
  cases c <;> rfl

theorem Change.isDigit_score (c : Change) : ∀ d ∈ c.score.toList, d.isDigit = true := by
  cases c with
  | renamed score old new => exact isDigit_threeDigits
  | copied score old new => exact isDigit_threeDigits
  | _ => exact fun _ hd => absurd hd List.not_mem_nil

theorem Change.toList_status (c : Change) : c.status.toList = c.letter :: c.score.toList :=
  String.toList_ofList

theorem Change.isPrintable_status (c : Change) :
    ∀ d ∈ c.status.toList, isPrintable d = true := by
  intro d hd
  rw [c.toList_status] at hd
  rcases List.mem_cons.mp hd with rfl | hd
  · exact c.isPrintable_letter
  · exact isPrintable_of_isDigit (c.isDigit_score d hd)

theorem Change.fields_eq (c : Change) :
    ∃ between, c.fields = c.status :: (between ++ [quotePath c.path]) ∧
      ∀ field ∈ between, ∃ path, field = quotePath path := by
  cases c with
  | renamed score old new =>
    exact ⟨[quotePath old], rfl, fun field hfield => ⟨old, List.mem_singleton.mp hfield⟩⟩
  | copied score old new =>
    exact ⟨[quotePath old], rfl, fun field hfield => ⟨old, List.mem_singleton.mp hfield⟩⟩
  | _ => exact ⟨[], rfl, fun _ hfield => absurd hfield List.not_mem_nil⟩

/-- What is between tabs is printable ASCII. -/
theorem Change.printable_field {c : Change} {field : String} (h : field ∈ c.fields) :
    ∀ d ∈ field.toList, isPrintable d = true := by
  obtain ⟨between, hfields, hbetween⟩ := c.fields_eq
  rw [hfields] at h
  rcases List.mem_cons.mp h with rfl | h
  · exact c.isPrintable_status
  · rcases List.mem_append.mp h with h | h
    · obtain ⟨path, rfl⟩ := hbetween field h
      exact isPrintable_quotePath
    · rw [List.mem_singleton.mp h]
      exact isPrintable_quotePath

theorem Change.mem_line {c : Change} {d : Char} (h : d ∈ c.line.toList) :
    d = '\t' ∨ isPrintable d = true := by
  unfold Change.line at h
  rw [String.toList_intercalate] at h
  rcases of_mem_intercalate h with h | ⟨l, hl, h⟩
  · exact Or.inl h
  · obtain ⟨field, hfield, rfl⟩ := List.mem_map.mp hl
    exact Or.inr (Change.printable_field hfield d h)

theorem isLineBreak_of_isPrintable (h : isPrintable c = true) : isLineBreak c = false := by
  unfold isPrintable at h
  simp only [Bool.and_eq_true, decide_eq_true_eq] at h
  unfold isLineBreak
  simp only [Bool.or_eq_false_iff, Bool.and_eq_false_imp, decide_eq_true_eq,
    decide_eq_false_iff_not]
  omega

theorem Change.isLine_line (c : Change) : IsLine c.line := by
  intro d hd
  rcases Change.mem_line hd with rfl | hd
  · decide
  · exact isLineBreak_of_isPrintable hd

theorem splitlines_nameStatusText (changes : List Change) :
    splitlines (nameStatusText changes) = changes.map Change.line := by
  apply splitlines_linesText
  intro line hline
  obtain ⟨c, -, rfl⟩ := List.mem_map.mp hline
  exact c.isLine_line

theorem Change.splitAt_line (c : Change) : splitAt '\t' c.line = c.fields := by
  obtain ⟨between, hfields, -⟩ := c.fields_eq
  apply splitAt_intercalate
  · rw [hfields]
    exact List.cons_ne_nil _ _
  · intro field hfield htab
    have hprintable := Change.printable_field hfield '\t' htab
    exact absurd hprintable (by decide)

end OmnibaseCore.Git
