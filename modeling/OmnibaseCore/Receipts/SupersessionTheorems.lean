import OmnibaseCore.Receipts.EligibilityTheorems
import OmnibaseCore.SemVer.Grammar

/-!
# Supersession, by the names of files

A directory lists its files in any order. `glob` picks some of them, and a pattern that is not
anchored at the beginning of the name reads the numbers of those.

* `supersessionLaw_iff`: when the records of a key are what decides about it.
-/

namespace OmnibaseCore.Receipts

open Regex SemVer

/-! ## Names of records -/

def recordPattern (checkType : String) : String := checkType ++ ".supersede.*.yaml"

/-- `<check_type>.supersede.<digits>.yaml`. -/
def recordName (checkType digits : String) : String :=
  checkType ++ ".supersede." ++ digits ++ ".yaml"

def IsNumber (i : TextInterpreter) (digits : String) : Prop :=
  digits ≠ "" ∧ ∀ c ∈ digits.toList, i.isDecimal c = true

section
variable {i : TextInterpreter}

theorem toList_recordName (checkType digits : String) :
    (recordName checkType digits).toList
      = checkType.toList ++ (".supersede.".toList ++ (digits.toList ++ ".yaml".toList)) := by
  unfold recordName
  simp only [String.toList_append, List.append_assoc]

theorem recordName_inj {y y' digits digits' : String} (h : IsNumber i digits)
    (h' : IsNumber i digits') (heq : recordName y digits = recordName y' digits') :
    y = y' ∧ digits = digits' := by
  have hchars := congrArg String.toList heq
  rw [toList_recordName, toList_recordName] at hchars
  simp only [← List.append_assoc] at hchars
  have hchars := List.append_cancel_right hchars
  have hreverse := congrArg List.reverse hchars
  have hsep : ".supersede.".toList.reverse = '.' :: "edesrepus.".toList := by decide
  rw [List.reverse_append, List.reverse_append, List.reverse_append, List.reverse_append,
    hsep] at hreverse
  have hdecimal : ∀ d : String, IsNumber i d → ∀ c ∈ d.toList.reverse, i.isDecimal c = true :=
    fun d hd c hc => hd.2 c (List.mem_reverse.mp hc)
  have hdot : ∀ l : List Char, ∀ c ∈ ('.' :: l).head?, i.isDecimal c = false := by
    intro l c hc
    rw [← Option.some.inj hc]
    exact not_isDecimal_of_mem i (by decide)
  obtain ⟨hdigits, hrest⟩ := append_inj_of_class (hdecimal digits h) (hdecimal digits' h')
    (hdot _) (hdot _) hreverse
  have hy := List.append_cancel_left (List.cons.inj hrest).2
  exact ⟨String.toList_inj.mp (List.reverse_injective hy),
    String.toList_inj.mp (List.reverse_injective hdigits)⟩

/-! ### The number of a name -/

theorem exists_of_run_supersedeNnnn {b : Bool} {rest : List Char} {s : Place}
    (h : (supersedeNnnnPattern i).run { atStart := b, rest := rest, groups := [] } some = some s) :
    ∃ digits, IsNumber i digits ∧ (s.rest = [] ∨ s.rest = ['\n']) ∧
      rest = ".supersede.".toList ++ (digits.toList ++ (".yaml".toList ++ s.rest)) ∧
      s.groups = [("1", digits)] := by
  unfold supersedeNnnnPattern at h
  -- the four parts of the pattern, one after the other
  rw [run_seq] at h
  obtain ⟨w, hw, ⟨rest₁, hrest₁⟩, h⟩ := exists_of_run (plain_text _) h
  rw [mem_language_text.mp hw] at hrest₁ h
  rw [run_seq] at h
  obtain ⟨digits, hdigits, rest₂, hrest₂, _, h⟩ :=
    exists_of_run_group (r := plus (chars i.isDecimal)) ⟨trivial, trivial⟩ h
  rw [run_seq] at h
  obtain ⟨w', hw', ⟨stop, hstop⟩, h⟩ := exists_of_run (plain_text _) h
  rw [mem_language_text.mp hw'] at hstop h
  rw [run_finish] at h
  split_ifs at h with hend
  dsimp only [Place.advance] at hrest₁ hrest₂ hstop hend h
  rw [← hrest₁, List.drop_left] at hrest₂
  rw [← hstop, List.drop_left] at hend h
  obtain ⟨hne, hall⟩ := mem_language_plus_chars.mp hdigits
  rw [← Option.some.inj h]
  refine ⟨String.ofList digits, ⟨fun hempty => hne ?_, ?_⟩, hend, ?_, rfl⟩
  · rw [← String.toList_ofList (l := digits), hempty]
    rfl
  · rw [String.toList_ofList]
    exact hall
  · rw [← hrest₁, hrest₂, ← hstop, String.toList_ofList (l := digits)]

theorem exists_of_matchAt_supersedeNnnn {b : Bool} {rest : List Char} {m : Match}
    (h : (supersedeNnnnPattern i).matchAt b rest = some m) :
    ∃ digits stop, IsNumber i digits ∧ (stop = [] ∨ stop = ['\n']) ∧
      rest = ".supersede.".toList ++ (digits.toList ++ (".yaml".toList ++ stop)) ∧
      m.group "1" = some digits := by
  unfold matchAt at h
  cases hrun : (supersedeNnnnPattern i).run { atStart := b, rest := rest, groups := [] } some with
  | none =>
    rw [hrun] at h
    exact nomatch h
  | some s =>
    rw [hrun] at h
    dsimp only at h
    split_ifs at h
    obtain ⟨digits, hdigits, hend, hrest, hgroups⟩ := exists_of_run_supersedeNnnn hrun
    refine ⟨digits, s.rest, hdigits, hend, hrest, ?_⟩
    rw [← Option.some.inj h]
    unfold Match.group
    dsimp only
    rw [hgroups]
    rfl

theorem isSome_matchAt_supersedeNnnn {digits : String} (h : IsNumber i digits) (b : Bool) :
    ((supersedeNnnnPattern i).matchAt b
      (".supersede.".toList ++ (digits.toList ++ ".yaml".toList))).isSome = true := by
  have hnumber : digits.toList ∈ (plus (chars i.isDecimal)).language :=
    mem_language_plus_chars.mpr ⟨fun hnil => h.1 (String.toList_inj.mp hnil), h.2⟩
  have hrun : ((supersedeNnnnPattern i).run
      { atStart := b, rest := ".supersede.".toList ++ (digits.toList ++ ".yaml".toList),
        groups := [] } some).isSome = true := by
    unfold supersedeNnnnPattern
    rw [run_seq]
    apply isSome_run (plain_text _) (mem_language_text.mpr rfl) (List.prefix_append _ _)
    rw [run_seq]
    apply isSome_run_group (r := plus (chars i.isDecimal)) ⟨trivial, trivial⟩ hnumber
    · show _ = _ ++ ".yaml".toList
      rw [Place.rest_advance, List.drop_left]
    · intro atStart
      rw [run_seq]
      apply isSome_run (plain_text _) (mem_language_text.mpr rfl) (List.prefix_refl _)
      rw [run_finish, if_pos]
      · rfl
      · exact Or.inl List.drop_length
  obtain ⟨s, hs⟩ := Option.isSome_iff_exists.mp hrun
  obtain ⟨digits', -, -, hrest, -⟩ := exists_of_run_supersedeNnnn hs
  have hless : s.rest.length < (".supersede.".toList ++ (digits.toList ++ ".yaml".toList)).length := by
    rw [hrest]
    simp only [List.length_append]
    have hfixed : ".supersede.".toList.length = 11 := by decide
    omega
  unfold matchAt
  rw [hs]
  dsimp only
  rw [if_pos hless]
  rfl

/-- The names that have a number are those of records, whatever their check type. -/
theorem findall_supersedeNnnn {name digits : String} (hline : name.toList.getLast? ≠ some '\n') :
    ((supersedeNnnnPattern i).findall "1" name).head? = some digits ↔
      IsNumber i digits ∧ ∃ y, name = recordName y digits := by
  have hfound : ∀ d ∈ (supersedeNnnnPattern i).findall "1" name,
      IsNumber i d ∧ ∃ y, name = recordName y d := by
    intro d hd
    obtain ⟨piece, hpiece, hgroup⟩ := List.mem_filterMap.mp hd
    cases piece with
    | char c => exact nomatch hgroup
    | found m =>
      obtain ⟨before, rest, b, hname, hmatch⟩ := exists_of_found_mem_pieces hpiece
      obtain ⟨digits', stop, hdigits', hstop, hrest, hgroup'⟩ :=
        exists_of_matchAt_supersedeNnnn hmatch
      rw [show m.group "1" = some d from hgroup, Option.some.injEq] at hgroup'
      rcases hstop with rfl | rfl
      · refine ⟨hgroup' ▸ hdigits', String.ofList before, String.toList_inj.mp ?_⟩
        rw [toList_recordName, String.toList_ofList, hname, hrest, hgroup', List.append_nil]
      · exfalso
        apply hline
        rw [hname, hrest]
        simp only [← List.append_assoc, List.getLast?_concat]
  constructor
  · intro h
    exact hfound digits (List.mem_of_head? h)
  · rintro ⟨hdigits, y, hname⟩
    obtain ⟨m, hm⟩ := exists_found_mem_pieces (r := supersedeNnnnPattern i) (s := name)
      (hname ▸ toList_recordName y digits) (isSome_matchAt_supersedeNnnn hdigits)
    obtain ⟨-, rest, b, -, hmatch⟩ := exists_of_found_mem_pieces hm
    obtain ⟨d, -, -, -, -, hgroup⟩ := exists_of_matchAt_supersedeNnnn hmatch
    have hmem : d ∈ (supersedeNnnnPattern i).findall "1" name :=
      List.mem_filterMap.mpr ⟨.found m, hm, hgroup⟩
    cases hall : (supersedeNnnnPattern i).findall "1" name with
    | nil =>
      rw [hall] at hmem
      exact nomatch hmem
    | cons d' rest =>
      obtain ⟨hd', y', hname'⟩ := hfound d' (hall ▸ List.mem_cons_self)
      rw [hname] at hname'
      rw [(recordName_inj hdigits hd' hname').2]
      rfl

end

/-! ## Listings -/

/-- The files, with `names` as the listing of a directory. `rejected` says which patterns `glob`
does not take: those with `**` inside a name, in some versions. What `glob` does with a `/` in the
pattern is not said by the listing. -/
def ReceiptFiles.listing (files : ReceiptFiles) (rejected : String → Option PyException)
    (dir : String) (names : List String) : ReceiptFiles :=
  { files with
    isDir := fun path => path = dir || files.isDir path
    glob := fun path pattern =>
      if path = dir ∧ '/' ∉ pattern.toList then
        match rejected pattern with
        | some e => .error e
        | none => .ok ((names.filter fun name => fnmatch name pattern).map (joinPath dir))
      else files.glob path pattern }

section
variable (i : ReceiptInterpreter) (files : ReceiptFiles) (rejected : String → Option PyException)
  (receiptsDir : String) (key : ReceiptKey)

def resolveListing (names : List String) : Except PyException (Option SupersessionResolution) :=
  resolveSupersession i (files.listing rejected (key.dir receiptsDir) names) receiptsDir key

def listedRecords (names : List String) : Except PyException (List (ℕ × String)) :=
  keyRecords i (files.listing rejected (key.dir receiptsDir) names) receiptsDir key

def recordPath (digits : String) : String :=
  joinPath (key.dir receiptsDir) (recordName key.checkType digits)

def HasRecord (names : List String) (digits : String) : Prop :=
  IsNumber i.toTextInterpreter digits ∧ recordName key.checkType digits ∈ names

/-- A name that `glob` picks and that has a number. -/
def Picked (names : List String) (y digits : String) : Prop :=
  IsNumber i.toTextInterpreter digits ∧ recordName y digits ∈ names ∧
    fnmatch (recordName y digits) (recordPattern key.checkType) = true

def recordValue (digits : String) : ℕ := digitsValue i.toTextInterpreter digits.toList

def AboveAll (names : List String) (digits : String) : Prop :=
  ∀ d, HasRecord i key names d → recordValue i d < recordValue i digits

/-- The records decide: they are what is considered, in any order of the listing, a record with a
smaller number than another one changes nothing, and one with a greater number than all is the
one that is read. -/
structure SupersessionLaw (names : List String) : Prop where
  considered : ∃ records, listedRecords i files rejected receiptsDir key names = .ok records ∧
    ∀ record, record ∈ records ↔
      ∃ d, HasRecord i key names d ∧ record = (recordValue i d, recordPath receiptsDir key d)
  perm : ∀ names', names'.Perm names →
    resolveListing i files rejected receiptsDir key names'
      = resolveListing i files rejected receiptsDir key names
  smaller : ∀ digits names', IsNumber i.toTextInterpreter digits →
    names'.Perm (recordName key.checkType digits :: names) →
    (∃ d, HasRecord i key names d ∧ recordValue i digits < recordValue i d) →
    resolveListing i files rejected receiptsDir key names'
      = resolveListing i files rejected receiptsDir key names
  greater : ∀ digits names', IsNumber i.toTextInterpreter digits →
    IsFileName (recordName key.checkType digits) →
    names'.Perm (recordName key.checkType digits :: names) → AboveAll i key names digits →
    ∃ records, listedRecords i files rejected receiptsDir key names' = .ok records ∧
      latestRecord records = some (recordValue i digits, recordPath receiptsDir key digits)

/-- `glob` finds the records of the key and no others, and no two records have the greatest
number, unless to load either of them raises the same exception. -/
structure Unmistaken (names : List String) : Prop where
  taken : rejected (recordPattern key.checkType) = none
  own : ∀ y d, Picked i key names y d → y = key.checkType
  found : ∀ d, HasRecord i key names d ∨
      (IsNumber i.toTextInterpreter d ∧ AboveAll i key names d) →
    fnmatch (recordName key.checkType d) (recordPattern key.checkType) = true
  greatest : ∀ d d', HasRecord i key names d → HasRecord i key names d' →
    (∀ d'', HasRecord i key names d'' → recordValue i d'' ≤ recordValue i d) →
    recordValue i d' = recordValue i d → d' = d ∨
    ∃ e, files.loadYaml (recordPath receiptsDir key d) = .error (.raised e) ∧
      files.loadYaml (recordPath receiptsDir key d') = .error (.raised e)

/-- What `glob` finds in other directories has no numbers. -/
def NothingElsewhere : Prop :=
  ∃ paths, files.glob (key.dir receiptsDir) (recordPattern key.checkType) = .ok paths ∧
    ∀ path ∈ paths, recordNumber i path = none

def RecordsDecide (names : List String) : Prop :=
  if '/' ∈ key.checkType.toList then NothingElsewhere i files receiptsDir key
  else Unmistaken i files rejected receiptsDir key names

variable {i files rejected receiptsDir key} {names : List String}

/-! ### What `glob` picks -/

theorem slash_mem_recordPattern {checkType : String} :
    '/' ∈ (recordPattern checkType).toList ↔ '/' ∈ checkType.toList := by
  unfold recordPattern
  simp [String.toList_append]

theorem getLast?_of_fnmatch {checkType name : String}
    (h : fnmatch name (recordPattern checkType) = true) : name.toList.getLast? ≠ some '\n' := by
  have hpattern : (recordPattern checkType).toList
      = (checkType.toList ++ ".supersede.*".toList) ++ ".yaml".toList := by
    unfold recordPattern
    rw [List.append_assoc, String.toList_append]
    rfl
  have hlength : (recordPattern checkType).length = (recordPattern checkType).toList.length :=
    String.length_toList.symm
  unfold fnmatch at h
  rw [hlength, hpattern] at h
  obtain ⟨items, m, hm, hitems⟩ := Glob.translate_append (v := ".yaml".toList) (by decide) le_rfl
  obtain ⟨k, rfl⟩ := Nat.exists_eq_add_of_le hm
  have hplain := Glob.translate_plain_append (w := ".yaml".toList)
    (by decide) k []
  rw [List.append_nil] at hplain
  have hnil : Glob.translate k [] = [] := by cases k <;> rfl
  rw [hitems, hplain, hnil, List.append_nil] at h
  obtain ⟨t, u, hname, -, hu⟩ := Glob.matchAll_append.mp h
  rw [hname, Glob.matchAll_literal.mp hu]
  simp

theorem recordNumber_joinPath {dir name : String} (hname : IsFileName name)
    (hline : name.toList.getLast? ≠ some '\n') {n : ℕ} :
    recordNumber i (joinPath dir name) = some n ↔
      ∃ y d, IsNumber i.toTextInterpreter d ∧ name = recordName y d ∧ recordValue i d = n := by
  unfold recordNumber
  rw [pathName_joinPath dir hname, Option.map_eq_some_iff]
  constructor
  · rintro ⟨d, hd, hn⟩
    obtain ⟨hnumber, y, hy⟩ := (findall_supersedeNnnn hline).mp hd
    exact ⟨y, d, hnumber, hy, hn⟩
  · rintro ⟨y, d, hnumber, hy, hn⟩
    exact ⟨d, (findall_supersedeNnnn hline).mpr ⟨hnumber, y, hy⟩, hn⟩

variable (i files rejected receiptsDir key names)

theorem listedRecords_eq :
    listedRecords i files rejected receiptsDir key names
      = ((files.listing rejected (key.dir receiptsDir) names).glob (key.dir receiptsDir)
          (recordPattern key.checkType)).map fun paths => paths.filterMap fun path =>
            (recordNumber i path).map fun n => (n, path) := by
  have hdir : (files.listing rejected (key.dir receiptsDir) names).isDir (key.dir receiptsDir)
      = true := by
    simp [ReceiptFiles.listing]
  unfold listedRecords keyRecords
  rw [hdir, if_neg (by simp)]
  show ((files.listing rejected (key.dir receiptsDir) names).glob (key.dir receiptsDir)
    (recordPattern key.checkType) >>= _) = _
  cases (files.listing rejected (key.dir receiptsDir) names).glob (key.dir receiptsDir)
    (recordPattern key.checkType) <;> rfl

variable {key} in
theorem listedRecords_of_slash_notMem (hslash : '/' ∉ key.checkType.toList) :
    listedRecords i files rejected receiptsDir key names =
      match rejected (recordPattern key.checkType) with
      | some e => .error e
      | none => .ok ((names.filter fun name => fnmatch name (recordPattern key.checkType)).filterMap
          fun name => (recordNumber i (joinPath (key.dir receiptsDir) name)).map fun n =>
            (n, joinPath (key.dir receiptsDir) name)) := by
  have hpattern : '/' ∉ (recordPattern key.checkType).toList :=
    fun h => hslash (slash_mem_recordPattern.mp h)
  have hglob : (files.listing rejected (key.dir receiptsDir) names).glob (key.dir receiptsDir)
      (recordPattern key.checkType) =
        match rejected (recordPattern key.checkType) with
        | some e => .error e
        | none => .ok ((names.filter fun name =>
            fnmatch name (recordPattern key.checkType)).map (joinPath (key.dir receiptsDir))) :=
    if_pos ⟨rfl, hpattern⟩
  rw [listedRecords_eq, hglob]
  cases rejected (recordPattern key.checkType) with
  | some e => rfl
  | none =>
    dsimp only [Except.map]
    rw [List.filterMap_map, Function.comp_def]

variable {i files rejected receiptsDir key names}

section
variable (hslash : '/' ∉ key.checkType.toList) (hnames : ∀ name ∈ names, IsFileName name)
include hslash hnames

variable (i files rejected receiptsDir key names) in
/-- The records of a key are the files that `glob` picks and that have a number. -/
theorem mem_listedRecords (htaken : rejected (recordPattern key.checkType) = none) :
    ∃ records, listedRecords i files rejected receiptsDir key names = .ok records ∧
      ∀ record, record ∈ records ↔ ∃ y d, Picked i key names y d ∧
        record = (recordValue i d, joinPath (key.dir receiptsDir) (recordName y d)) := by
  rw [listedRecords_of_slash_notMem i files rejected receiptsDir names hslash, htaken]
  refine ⟨_, rfl, fun record => ?_⟩
  rw [List.mem_filterMap]
  constructor
  · rintro ⟨name, hname, hrecord⟩
    obtain ⟨hmem, hmatch⟩ := List.mem_filter.mp hname
    obtain ⟨n, hn, rfl⟩ := Option.map_eq_some_iff.mp hrecord
    obtain ⟨y, d, hd, rfl, rfl⟩ :=
      (recordNumber_joinPath (hnames name hmem) (getLast?_of_fnmatch hmatch)).mp hn
    exact ⟨y, d, ⟨hd, hmem, hmatch⟩, rfl⟩
  · rintro ⟨y, d, ⟨hd, hmem, hmatch⟩, rfl⟩
    refine ⟨recordName y d, List.mem_filter.mpr ⟨hmem, hmatch⟩, Option.map_eq_some_iff.mpr ?_⟩
    exact ⟨recordValue i d, (recordNumber_joinPath (hnames _ hmem)
      (getLast?_of_fnmatch hmatch)).mpr ⟨y, d, hd, rfl, rfl⟩, rfl⟩

end

/-! ### The latest record -/

/-- A record with the greatest number is the latest. -/
theorem latestRecord_concat {records : List (ℕ × String)} {last : ℕ × String}
    (h : ∀ record ∈ records, record.1 ≤ last.1) :
    latestRecord (records ++ [last]) = some last := by
  have hinsert : ∀ (r : ℕ × String) (l : List (ℕ × String)), l.getLast? = some last →
      r.1 ≤ last.1 → (l.orderedInsert (fun a b => a.1 ≤ b.1) r).getLast? = some last := by
    intro r l
    induction l with
    | nil => intro hlast; exact nomatch hlast
    | cons a l ih =>
      intro hlast hr
      rw [List.orderedInsert_cons]
      split_ifs with hra
      · rw [List.getLast?_cons_cons, hlast]
      · cases l with
        | nil =>
          rw [List.getLast?_singleton, Option.some.injEq] at hlast
          exact absurd (hlast ▸ hr) hra
        | cons b l =>
          rw [List.getLast?_cons_cons] at hlast
          have hrest := ih hlast hr
          obtain ⟨c, t, ht⟩ := List.exists_cons_of_ne_nil
            (List.ne_nil_of_mem (List.mem_of_getLast? hrest))
          rw [ht] at hrest ⊢
          rw [List.getLast?_cons_cons, hrest]
  unfold latestRecord sortedAsc
  induction records with
  | nil => rfl
  | cons r records ih =>
    rw [List.forall_mem_cons] at h
    exact hinsert r _ (ih h.2) h.1

variable (i files key) in
theorem resolveListing_of_latest {records : List (ℕ × String)} {latest : ℕ × String}
    (hrecords : listedRecords i files rejected receiptsDir key names = .ok records) (hlatest : latestRecord records = some latest) :
    resolveListing i files rejected receiptsDir key names
      = (resolveRecord i files key latest.2).map some := by
  unfold resolveListing resolveSupersession
  unfold listedRecords at hrecords
  rw [hrecords]
  have hrecord : resolveRecord i (files.listing rejected (key.dir receiptsDir) names) key latest.2
      = resolveRecord i files key latest.2 := rfl
  dsimp only [bind, Except.bind]
  rw [hlatest]
  dsimp only
  rw [hrecord]
  cases resolveRecord i files key latest.2 <;> rfl

theorem resolveRecord_inj {path path' : String}
    (h : resolveRecord i files key path = resolveRecord i files key path') :
    path = path' ∨ ∃ e, files.loadYaml path = .error (.raised e) ∧
      files.loadYaml path' = .error (.raised e) := by
  have hsource : ∀ p, (∃ e, files.loadYaml p = .error (.raised e) ∧
      resolveRecord i files key p = .error e) ∨
      ∃ r, resolveRecord i files key p = .ok r ∧ r.sourcePath = p := by
    intro p
    unfold resolveRecord
    cases files.loadYaml p with
    | error e =>
      cases e with
      | raised e => exact Or.inl ⟨e, rfl, rfl⟩
      | unreadable e => exact Or.inr ⟨_, rfl, rfl⟩
    | ok raw =>
      right
      dsimp only
      cases ModelReceiptSupersession.modelValidate i raw with
      | error e => exact ⟨_, rfl, rfl⟩
      | ok record =>
        dsimp only
        split_ifs <;> exact ⟨_, rfl, rfl⟩
  rcases hsource path with ⟨e, hload, he⟩ | ⟨r, hr, hpath⟩ <;>
    rcases hsource path' with ⟨e', hload', he'⟩ | ⟨r', hr', hpath'⟩
  · rw [he, he', Except.error.injEq] at h
    exact Or.inr ⟨e, hload, h ▸ hload'⟩
  · rw [he, hr'] at h
    exact nomatch h
  · rw [hr, he'] at h
    exact nomatch h
  · rw [hr, hr', Except.ok.injEq] at h
    exact Or.inl (by rw [← hpath, ← hpath', h])

/-! ### When the records decide -/

variable (receiptsDir key) in
theorem recordPath_inj {y y' d d' : String} (hd : IsNumber i.toTextInterpreter d)
    (hd' : IsNumber i.toTextInterpreter d') (hname : IsFileName (recordName y d))
    (hname' : IsFileName (recordName y' d'))
    (h : joinPath (key.dir receiptsDir) (recordName y d)
      = joinPath (key.dir receiptsDir) (recordName y' d')) : y = y' ∧ d = d' := by
  apply recordName_inj hd hd'
  rw [← pathName_joinPath (key.dir receiptsDir) hname, h, pathName_joinPath _ hname']

variable (hslash : '/' ∉ key.checkType.toList) (hnames : ∀ name ∈ names, IsFileName name)

variable {top : String}

include hslash hnames in
theorem resolveListing_of_top (htaken : rejected (recordPattern key.checkType) = none)
    (htop : Picked i key names key.checkType top)
    (hall : ∀ y d, Picked i key names y d → y = key.checkType ∧
      recordValue i d ≤ recordValue i top ∧ (recordValue i d = recordValue i top →
        resolveRecord i files key (recordPath receiptsDir key d)
          = resolveRecord i files key (recordPath receiptsDir key top))) :
    resolveListing i files rejected receiptsDir key names
      = (resolveRecord i files key (recordPath receiptsDir key top)).map some := by
  obtain ⟨records, hrecords, hmem⟩ :=
    mem_listedRecords i files rejected receiptsDir key names hslash hnames htaken
  have htopMem : (recordValue i top, recordPath receiptsDir key top) ∈ records :=
    (hmem _).mpr ⟨_, top, htop, rfl⟩
  cases hlatest : latestRecord records with
  | none => exact absurd (latestRecord_eq_none hlatest ▸ htopMem) List.not_mem_nil
  | some latest =>
    obtain ⟨hlatestMem, hmax⟩ := le_of_latestRecord hlatest
    obtain ⟨y, d, hpicked, hlatestEq⟩ := (hmem latest).mp hlatestMem
    obtain ⟨rfl, hle, hsame⟩ := hall y d hpicked
    have hge := hmax _ htopMem
    rw [hlatestEq] at hge
    rw [resolveListing_of_latest i files key hrecords hlatest, hlatestEq]
    exact congrArg (Except.map some) (hsame (le_antisymm hle hge))

def Top (i : ReceiptInterpreter) (key : ReceiptKey) (names : List String) (top : String) : Prop :=
  HasRecord i key names top ∧
    ∀ d, HasRecord i key names d → recordValue i d ≤ recordValue i top

theorem Unmistaken.picked (h : Unmistaken i files rejected receiptsDir key names) {d : String}
    (hd : HasRecord i key names d) : Picked i key names key.checkType d :=
  ⟨hd.1, hd.2, h.found d (Or.inl hd)⟩

theorem Unmistaken.same (h : Unmistaken i files rejected receiptsDir key names) {d top : String}
    (htop : Top i key names top) (hd : HasRecord i key names d)
    (heq : recordValue i d = recordValue i top) :
    resolveRecord i files key (recordPath receiptsDir key d)
      = resolveRecord i files key (recordPath receiptsDir key top) := by
  rcases h.greatest top d htop.1 hd htop.2 heq with rfl | ⟨e, hload, hload'⟩
  · rfl
  · unfold resolveRecord
    rw [hload, hload']

include hslash hnames in
/-- What a listing without mistakes resolves to. -/
theorem Unmistaken.resolves (h : Unmistaken i files rejected receiptsDir key names) :
    ((∀ d, ¬ HasRecord i key names d) ∧
      resolveListing i files rejected receiptsDir key names = .ok none) ∨
    ∃ top, Top i key names top := by
  obtain ⟨records, hrecords, hmem⟩ :=
    mem_listedRecords i files rejected receiptsDir key names hslash hnames h.taken
  have hown : ∀ d, HasRecord i key names d →
      (recordValue i d, recordPath receiptsDir key d) ∈ records := fun d hd =>
    (hmem _).mpr ⟨_, d, h.picked hd, rfl⟩
  cases hlatest : latestRecord records with
  | none =>
    rw [latestRecord_eq_none hlatest] at hown hrecords
    refine Or.inl ⟨fun d hd => List.not_mem_nil (hown d hd), ?_⟩
    unfold resolveListing resolveSupersession
    unfold listedRecords at hrecords
    rw [hrecords]
    rfl
  | some latest =>
    obtain ⟨hlatestMem, hmax⟩ := le_of_latestRecord hlatest
    obtain ⟨y, top, hpicked, rfl⟩ := (hmem latest).mp hlatestMem
    obtain rfl := h.own y top hpicked
    exact Or.inr ⟨top, ⟨hpicked.1, hpicked.2.1⟩, fun d hd => hmax _ (hown d hd)⟩

include hslash hnames in
theorem Unmistaken.resolveListing_eq (h : Unmistaken i files rejected receiptsDir key names)
    (htop : Top i key names top) :
    resolveListing i files rejected receiptsDir key names
      = (resolveRecord i files key (recordPath receiptsDir key top)).map some := by
  apply resolveListing_of_top hslash hnames h.taken (h.picked htop.1)
  intro y d hpicked
  obtain rfl := h.own y d hpicked
  have hd : HasRecord i key names d := ⟨hpicked.1, hpicked.2.1⟩
  exact ⟨rfl, htop.2 d hd, h.same htop hd⟩

variable {names' : List String}

theorem hasRecord_perm (h : names'.Perm names) : HasRecord i key names' = HasRecord i key names := by
  funext d
  unfold HasRecord
  rw [h.mem_iff]

theorem Unmistaken.perm (h : Unmistaken i files rejected receiptsDir key names)
    (hperm : names'.Perm names) : Unmistaken i files rejected receiptsDir key names' := by
  obtain ⟨htaken, hown, hfound, hgreatest⟩ := h
  refine ⟨htaken, fun y d ⟨hd, hmem, hmatch⟩ => hown y d ⟨hd, hperm.mem_iff.mp hmem, hmatch⟩,
    ?_, ?_⟩
  · unfold AboveAll at hfound ⊢
    rwa [hasRecord_perm hperm]
  · rwa [hasRecord_perm hperm]

include hslash hnames in
theorem Unmistaken.resolveListing_perm (h : Unmistaken i files rejected receiptsDir key names)
    (hperm : names'.Perm names) : resolveListing i files rejected receiptsDir key names'
      = resolveListing i files rejected receiptsDir key names := by
  have hnames' : ∀ name ∈ names', IsFileName name := fun name hmem =>
    hnames name (hperm.mem_iff.mp hmem)
  rcases h.resolves hslash hnames with ⟨hno, hnone⟩ | ⟨top, htop⟩
  · rcases (h.perm hperm).resolves hslash hnames' with ⟨-, hnone'⟩ | ⟨top, htop⟩
    · rw [hnone, hnone']
    · exact absurd (hasRecord_perm hperm ▸ htop.1) (hno top)
  · rw [h.resolveListing_eq hslash hnames htop]
    unfold Top at htop
    rw [← hasRecord_perm hperm] at htop
    exact (h.perm hperm).resolveListing_eq hslash hnames' htop

theorem isFileName_recordName {y d : String} (hslash : '/' ∉ y.toList)
    (hd : IsNumber i.toTextInterpreter d) : IsFileName (recordName y d) := by
  have hchars := toList_recordName y d
  have hdot : '.' ∈ (recordName y d).toList := by
    rw [hchars]
    simp
  refine ⟨fun hempty => ?_, fun hname => ?_, fun hmem => ?_⟩
  · rw [hempty] at hdot
    exact nomatch hdot
  · have hlength := congrArg List.length hchars
    rw [hname] at hlength
    simp at hlength
    omega
  · have hdecimal : '/' ∉ d.toList := by
      intro hin
      have hdigit := hd.2 '/' hin
      rw [isDecimal_eq_isDigit i.toTextInterpreter (by decide)] at hdigit
      exact nomatch hdigit
    rw [hchars] at hmem
    simp [hslash, hdecimal] at hmem

include hnames in
theorem Unmistaken.of_added (h : Unmistaken i files rejected receiptsDir key names)
    {digits : String} (hdigits : IsNumber i.toTextInterpreter digits)
    (hname : IsFileName (recordName key.checkType digits))
    (hperm : names'.Perm (recordName key.checkType digits :: names)) :
    (∀ name ∈ names', IsFileName name) ∧ ∀ y d, Picked i key names' y d →
      y = key.checkType ∧ (d = digits ∨ HasRecord i key names d) := by
  refine ⟨fun name hmem => ?_, fun y d ⟨hd, hmem, hmatch⟩ => ?_⟩
  · rcases List.mem_cons.mp (hperm.mem_iff.mp hmem) with rfl | hmem
    · exact hname
    · exact hnames name hmem
  · rcases List.mem_cons.mp (hperm.mem_iff.mp hmem) with heq | hmem
    · obtain ⟨rfl, rfl⟩ := recordName_inj hd hdigits heq
      exact ⟨rfl, Or.inl rfl⟩
    · obtain rfl := h.own y d ⟨hd, hmem, hmatch⟩
      exact ⟨rfl, Or.inr ⟨hd, hmem⟩⟩

include hslash hnames in
/-- Where `glob` finds the records of a key and no others, they decide. -/
theorem Unmistaken.law (h : Unmistaken i files rejected receiptsDir key names) :
    SupersessionLaw i files rejected receiptsDir key names := by
  refine ⟨?_, fun names' hperm => h.resolveListing_perm hslash hnames hperm,
    fun digits names' hdigits hperm hless => ?_, fun digits names' hdigits hname hperm habove => ?_⟩
  · obtain ⟨records, hrecords, hmem⟩ :=
      mem_listedRecords i files rejected receiptsDir key names hslash hnames h.taken
    refine ⟨records, hrecords, fun record => (hmem record).trans ⟨?_, ?_⟩⟩
    · rintro ⟨y, d, hpicked, hrecord⟩
      obtain rfl := h.own y d hpicked
      exact ⟨d, ⟨hpicked.1, hpicked.2.1⟩, hrecord⟩
    · rintro ⟨d, hd, hrecord⟩
      exact ⟨_, d, h.picked hd, hrecord⟩
  · obtain ⟨hnames', hown⟩ := h.of_added hnames hdigits (isFileName_recordName hslash hdigits) hperm
    obtain ⟨d₀, hd₀, hless⟩ := hless
    rcases h.resolves hslash hnames with ⟨hno, -⟩ | ⟨top, htop⟩
    · exact absurd hd₀ (hno d₀)
    · rw [h.resolveListing_eq hslash hnames htop]
      obtain ⟨hnumber, hmem, hmatch⟩ := h.picked htop.1
      apply resolveListing_of_top hslash hnames' h.taken
        ⟨hnumber, hperm.mem_iff.mpr (List.mem_cons_of_mem _ hmem), hmatch⟩
      intro y d hpicked
      obtain ⟨rfl, rfl | hold⟩ := hown y d hpicked
      · have hbelow := lt_of_lt_of_le hless (htop.2 d₀ hd₀)
        exact ⟨rfl, hbelow.le, fun heq => absurd heq hbelow.ne⟩
      · exact ⟨rfl, htop.2 d hold, h.same htop hold⟩
  · obtain ⟨hnames', hown⟩ := h.of_added hnames hdigits hname hperm
    obtain ⟨records, hrecords, hmem⟩ :=
      mem_listedRecords i files rejected receiptsDir key names' hslash hnames' h.taken
    have hnew : (recordValue i digits, recordPath receiptsDir key digits) ∈ records :=
      (hmem _).mpr ⟨_, digits, ⟨hdigits, hperm.mem_iff.mpr List.mem_cons_self,
        h.found digits (Or.inr ⟨hdigits, habove⟩)⟩, rfl⟩
    refine ⟨records, hrecords, ?_⟩
    cases hlatest : latestRecord records with
    | none => exact absurd (latestRecord_eq_none hlatest ▸ hnew) List.not_mem_nil
    | some latest =>
      obtain ⟨hlatestMem, hmax⟩ := le_of_latestRecord hlatest
      obtain ⟨y, d, hpicked, rfl⟩ := (hmem latest).mp hlatestMem
      obtain ⟨rfl, rfl | hold⟩ := hown y d hpicked
      · rfl
      · exact absurd (hmax _ hnew) (not_le_of_gt (habove d hold))

/-! ### When they do not -/

include hslash in
theorem SupersessionLaw.taken (h : SupersessionLaw i files rejected receiptsDir key names) :
    rejected (recordPattern key.checkType) = none := by
  obtain ⟨records, hrecords, -⟩ := h.considered
  rw [listedRecords_of_slash_notMem i files rejected receiptsDir names hslash] at hrecords
  cases hrejected : rejected (recordPattern key.checkType) with
  | none => rfl
  | some e =>
    rw [hrejected] at hrecords
    exact nomatch hrecords

include hslash hnames in
theorem SupersessionLaw.resolveListing_eq
    (h : SupersessionLaw i files rejected receiptsDir key names)
    (hown : ∀ y d, Picked i key names y d → y = key.checkType)
    (htop : Top i key names top)
    (hmatch : fnmatch (recordName key.checkType top) (recordPattern key.checkType) = true) :
    resolveListing i files rejected receiptsDir key names
      = (resolveRecord i files key (recordPath receiptsDir key top)).map some := by
  obtain ⟨⟨htopNumber, htopMem⟩, hmax⟩ := htop
  obtain ⟨front, hperm⟩ : ∃ front, (front ++ [recordName key.checkType top]).Perm names :=
    ⟨names.erase _, (List.perm_append_singleton _ _).trans (List.perm_cons_erase htopMem).symm⟩
  have hnames' : ∀ name ∈ front ++ [recordName key.checkType top], IsFileName name :=
    fun name hmem => hnames name (hperm.mem_iff.mp hmem)
  obtain ⟨records, hrecords, hmem⟩ :=
    mem_listedRecords i files rejected receiptsDir key _ hslash hnames' (h.taken hslash)
  have hnumber : recordNumber i (recordPath receiptsDir key top) = some (recordValue i top) :=
    (recordNumber_joinPath (hnames _ htopMem) (getLast?_of_fnmatch hmatch)).mpr
      ⟨_, top, htopNumber, rfl, rfl⟩
  have hlisted := listedRecords_of_slash_notMem i files rejected receiptsDir
    (front ++ [recordName key.checkType top]) hslash
  rw [h.taken hslash, List.filter_append, List.filter_cons, if_pos hmatch, List.filter_nil,
    List.filterMap_append, List.filterMap_cons] at hlisted
  unfold recordPath at hnumber
  rw [hnumber] at hlisted
  have hconcat := Except.ok.inj (hrecords.symm.trans hlisted)
  have hlatest : latestRecord records
      = some (recordValue i top, recordPath receiptsDir key top) := by
    rw [hconcat]
    apply latestRecord_concat
    intro record hrecord
    obtain ⟨y, d, ⟨hd, hname, hmatch'⟩, rfl⟩ := (hmem record).mp
      (hconcat ▸ List.mem_append_left _ hrecord)
    have hname := hperm.mem_iff.mp hname
    obtain rfl := hown y d ⟨hd, hname, hmatch'⟩
    exact hmax d ⟨hd, hname⟩
  rw [← h.perm _ hperm, resolveListing_of_latest i files key hrecords hlatest]

include hslash hnames in
/-- Where the law holds, `glob` finds the records and no others. -/
theorem SupersessionLaw.unmistaken (h : SupersessionLaw i files rejected receiptsDir key names) :
    Unmistaken i files rejected receiptsDir key names := by
  have htaken := h.taken hslash
  obtain ⟨records, hrecords, hlaw⟩ := h.considered
  obtain ⟨records', hrecords', hmem⟩ :=
    mem_listedRecords i files rejected receiptsDir key names hslash hnames htaken
  rw [hrecords, Except.ok.injEq] at hrecords'
  subst hrecords'
  have hfound : ∀ d, HasRecord i key names d →
      fnmatch (recordName key.checkType d) (recordPattern key.checkType) = true := by
    intro d hd
    obtain ⟨y, d', ⟨hd', hname, hmatch⟩, heq⟩ := (hmem _).mp ((hlaw _).mpr ⟨d, hd, rfl⟩)
    obtain ⟨rfl, rfl⟩ := recordPath_inj receiptsDir key hd.1 hd' (hnames _ hd.2) (hnames _ hname)
      (Prod.mk.inj heq).2
    exact hmatch
  have hown : ∀ y d, Picked i key names y d → y = key.checkType := by
    intro y d hpicked
    obtain ⟨d', hd', heq⟩ := (hlaw _).mp ((hmem _).mpr ⟨y, d, hpicked, rfl⟩)
    exact (recordPath_inj receiptsDir key hpicked.1 hd'.1 (hnames _ hpicked.2.1) (hnames _ hd'.2)
      (Prod.mk.inj heq).2).1
  refine ⟨htaken, hown, fun d hd => ?_, fun d d' hd hd' hmax heq => ?_⟩
  · rcases hd with hd | ⟨hd, habove⟩
    · exact hfound d hd
    · have hname := isFileName_recordName (i := i) hslash hd
      have hnames' : ∀ name ∈ recordName key.checkType d :: names, IsFileName name :=
        List.forall_mem_cons.mpr ⟨hname, hnames⟩
      obtain ⟨added, hadded, hlatest⟩ := h.greater d _ hd hname (List.Perm.refl _) habove
      obtain ⟨added', hadded', hmem'⟩ :=
        mem_listedRecords i files rejected receiptsDir key _ hslash hnames' htaken
      obtain rfl := Except.ok.inj (hadded.symm.trans hadded')
      have hread := (le_of_latestRecord hlatest).1
      obtain ⟨y, d', ⟨hd', hname', hmatch⟩, heq⟩ := (hmem' _).mp hread
      obtain ⟨rfl, rfl⟩ := recordPath_inj receiptsDir key hd hd' hname (hnames' _ hname')
        (Prod.mk.inj heq).2
      exact hmatch
  · -- in one order the first is read, in another one the second
    have hread := h.resolveListing_eq hslash hnames hown ⟨hd, hmax⟩ (hfound d hd)
    rw [h.resolveListing_eq hslash hnames hown ⟨hd', heq ▸ hmax⟩ (hfound d' hd')] at hread
    have hsame : resolveRecord i files key (recordPath receiptsDir key d)
        = resolveRecord i files key (recordPath receiptsDir key d') := by
      cases hd : resolveRecord i files key (recordPath receiptsDir key d) <;>
        cases hd' : resolveRecord i files key (recordPath receiptsDir key d') <;>
        simp_all [Except.map]
    rcases resolveRecord_inj hsame with hpath | hraised
    · exact Or.inl (recordPath_inj receiptsDir key hd.1 hd'.1 (hnames _ hd.2) (hnames _ hd'.2)
        hpath).2.symm
    · exact Or.inr hraised

theorem supersessionLaw_elsewhere_iff (hslash : '/' ∈ key.checkType.toList)
    (hnames : ∀ name ∈ names, IsFileName name) :
    SupersessionLaw i files rejected receiptsDir key names ↔
      NothingElsewhere i files receiptsDir key := by
  have hnone : ∀ d, ¬ HasRecord i key names d := by
    intro d hd
    apply (hnames _ hd.2).2.2
    rw [toList_recordName]
    exact List.mem_append_left _ hslash
  have hglob : ∀ names, (files.listing rejected (key.dir receiptsDir) names).glob
      (key.dir receiptsDir) (recordPattern key.checkType)
        = files.glob (key.dir receiptsDir) (recordPattern key.checkType) := fun names =>
    if_neg fun h => h.2 (slash_mem_recordPattern.mpr hslash)
  constructor
  · rintro ⟨⟨records, hrecords, hmem⟩, -, -, -⟩
    rw [listedRecords_eq, hglob] at hrecords
    cases hpaths : files.glob (key.dir receiptsDir) (recordPattern key.checkType) with
    | error e =>
      rw [hpaths] at hrecords
      exact nomatch hrecords
    | ok paths =>
      rw [hpaths] at hrecords
      refine ⟨paths, hpaths, fun path hpath => ?_⟩
      by_contra hnumber
      obtain ⟨n, hn⟩ := Option.ne_none_iff_exists'.mp hnumber
      have hrecord : (n, path) ∈ records := by
        rw [← Except.ok.inj hrecords]
        exact List.mem_filterMap.mpr ⟨path, hpath, by rw [hn]; rfl⟩
      obtain ⟨d, hd, -⟩ := (hmem _).mp hrecord
      exact hnone d hd
  · rintro ⟨paths, hfound, hpaths⟩
    have hempty : paths.filterMap (fun path => (recordNumber i path).map fun n => (n, path))
        = [] := by
      rw [List.filterMap_eq_nil_iff]
      intro path hpath
      rw [hpaths path hpath]
      rfl
    have hrecords : ∀ names, listedRecords i files rejected receiptsDir key names = .ok [] := by
      intro names
      rw [listedRecords_eq, hglob, hfound]
      exact congrArg Except.ok hempty
    refine ⟨⟨[], hrecords names, fun record => ?_⟩, fun names' _ => ?_, fun _ _ _ _ hless => ?_,
      fun digits _ _ hname _ _ => ?_⟩
    · exact iff_of_false List.not_mem_nil fun ⟨d, hd, _⟩ => hnone d hd
    · have hread := hrecords
      unfold listedRecords at hread
      unfold resolveListing resolveSupersession
      rw [hread, hread]
      rfl
    · obtain ⟨d, hd, -⟩ := hless
      exact absurd hd (hnone d)
    · refine absurd ?_ hname.2.2
      rw [toList_recordName]
      exact List.mem_append_left _ hslash

/-- The records of a key decide about it exactly if `glob` finds them and no others, and no two
records have the greatest number. -/
theorem supersessionLaw_iff (i : ReceiptInterpreter) (files : ReceiptFiles)
    (rejected : String → Option PyException) (receiptsDir : String) (key : ReceiptKey)
    (names : List String) (hnames : ∀ name ∈ names, IsFileName name) :
    SupersessionLaw i files rejected receiptsDir key names ↔
      RecordsDecide i files rejected receiptsDir key names := by
  unfold RecordsDecide
  split_ifs with hslash
  · exact supersessionLaw_elsewhere_iff hslash hnames
  · exact ⟨fun h => h.unmistaken hslash hnames, fun h => h.law hslash hnames⟩

end

/-! ### Two spellings of a number -/

def commandKey : ReceiptKey :=
  { ticketId := "OMN-1", evidenceItemId := "dod-1", checkType := "command" }

/-- Records with one number, spelled in two ways. -/
def paddedNames : List String := ["command.supersede.1.yaml", "command.supersede.0001.yaml"]

/-- Two records, and the receipt that they supersede. -/
def plainNames : List String :=
  ["command.yaml", "command.supersede.1.yaml", "command.supersede.2.yaml"]

theorem fnmatch_recordName_command (digits : String) :
    fnmatch (recordName "command" digits) (recordPattern "command") = true := by
  have hitems : Glob.translate (recordPattern "command").length (recordPattern "command").toList
      = Glob.literal "command.supersede.".toList ++ .star :: Glob.literal ".yaml".toList := rfl
  unfold fnmatch
  rw [hitems, Glob.matchAll_append]
  refine ⟨"command.supersede.".toList, digits.toList ++ ".yaml".toList, ?_,
    Glob.matchAll_literal.mpr rfl, Glob.matchAll_star.mpr ⟨_, _, rfl, Glob.matchAll_literal.mpr rfl⟩⟩
  rw [toList_recordName]
  rfl

theorem spelled_of_mem_plainNames {y d : String} (hd : IsNumber plainReceipts.toTextInterpreter d)
    (h : recordName y d ∈ plainNames) : y = "command" ∧ (d = "1" ∨ d = "2") := by
  have hnumber : ∀ d ∈ ["1", "2"], IsNumber plainReceipts.toTextInterpreter d := by
    unfold IsNumber
    decide
  have hname : ∀ d' ∈ ["1", "2"], recordName y d = recordName "command" d' → y = "command" ∧ d = d' :=
    fun d' hd' heq => recordName_inj hd (hnumber d' hd') heq
  simp only [plainNames, List.mem_cons, List.not_mem_nil, or_false] at h
  rcases h with h | h | h
  · have hlength := congrArg (fun name => name.toList.length) h
    simp [toList_recordName] at hlength
    omega
  · exact (hname "1" (by simp) h).imp_right Or.inl
  · exact (hname "2" (by simp) h).imp_right Or.inr

theorem supersessionLaw_iff_plainName :
    SupersessionLaw plainReceipts twoReceipts (fun _ => none) "receipts" commandKey plainNames := by
  refine (supersessionLaw_iff _ _ _ _ _ _ (by simp [plainNames, IsFileName])).mpr ?_
  unfold RecordsDecide
  rw [if_neg (by decide)]
  have hrecord : HasRecord plainReceipts commandKey plainNames "2" := by
    unfold HasRecord IsNumber
    decide
  have hvalue : recordValue plainReceipts "1" = 1 ∧ recordValue plainReceipts "2" = 2 := by decide
  refine ⟨rfl, fun y d hpicked => (spelled_of_mem_plainNames hpicked.1 hpicked.2.1).1,
    fun d _ => fnmatch_recordName_command d, fun d d' hd hd' hgreatest hsame => Or.inl ?_⟩
  have htwo := hgreatest "2" hrecord
  rcases (spelled_of_mem_plainNames hd.1 hd.2).2 with rfl | rfl <;>
    rcases (spelled_of_mem_plainNames hd'.1 hd'.2).2 with rfl | rfl <;> first | rfl | omega

theorem paddedNames_not_law :
    ¬ SupersessionLaw plainReceipts twoReceipts (fun _ => none) "receipts" commandKey
      paddedNames := by
  intro hlaw
  have hnames : ∀ name ∈ paddedNames, IsFileName name := by simp [paddedNames, IsFileName]
  have hrecord : ∀ d ∈ ["1", "0001"], HasRecord plainReceipts commandKey paddedNames d := by
    unfold HasRecord IsNumber
    decide
  have hone : ∀ d, HasRecord plainReceipts commandKey paddedNames d →
      recordValue plainReceipts d = 1 := by
    intro d hd
    have hspelled : d = "1" ∨ d = "0001" := by
      rcases List.mem_cons.mp hd.2 with heq | hmem
      · have heq : recordName "command" d = recordName "command" "1" := heq
        exact Or.inl (recordName_inj hd.1 (hrecord "1" (by simp)).1 heq).2
      · have heq : recordName "command" d = recordName "command" "0001" :=
          List.mem_singleton.mp hmem
        exact Or.inr (recordName_inj hd.1 (hrecord "0001" (by simp)).1 heq).2
    rcases hspelled with rfl | rfl <;> decide
  rcases (hlaw.unmistaken (by decide) hnames).greatest "1" "0001" (hrecord _ (by simp))
    (hrecord _ (by simp)) (fun d hd => (hone d hd).le) rfl with heq | ⟨e, hload, -⟩
  · exact absurd heq (by decide)
  · exact nomatch hload

end OmnibaseCore.Receipts
