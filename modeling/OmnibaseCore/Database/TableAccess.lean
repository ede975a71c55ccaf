import OmnibaseCore.Database.Contract
import OmnibaseCore.Database.StripTheorems
import OmnibaseCore.Python.Sorted
import OmnibaseCore.Regex.Keyword
import OmnibaseCore.Sql.Statement

/-!
# `validate_db_table_access`

The tables of a statement are those that one of ten patterns finds: an unquoted or a quoted name
behind `FROM`, `JOIN`, `INTO`, `UPDATE` or `DELETE FROM`. A statement with a CTE or a subquery goes
to a parser, which is an argument.
-/

namespace OmnibaseCore.Database

open Regex Validation

/-! ## Patterns -/

/-- `[a-zA-Z_]` with `re.IGNORECASE`. -/
def identifierStart (c : Char) : Bool :=
  c.isAlpha || c = '_' || c = 'ı' || c = 'İ' || c = 'ſ' || c.toNat = 0x212a

/-- `[a-zA-Z0-9_]` with `re.IGNORECASE`. -/
def identifierChar (c : Char) : Bool := identifierStart c || c.isDigit

/-- A part of `_TABLE_IDENTIFIER`. -/
def identifierPart : Regex := seq (chars identifierStart) (star (chars identifierChar))

def tableIdentifier : Regex := seq identifierPart (opt (seq (chars (· = '.')) identifierPart))

/-- A part of `_QUOTED_IDENTIFIER`. -/
def quotedPart : Regex :=
  seq (chars (· = '"')) (seq (chars (· ≠ '"')) (seq (upTo (chars (· ≠ '"')) 127)
    (chars (· = '"'))))

def quotedIdentifier : Regex := seq quotedPart (opt (seq (chars (· = '.')) quotedPart))

section
variable (i : TextInterpreter)

/-- `\bKEYWORD\s+(name)` with `re.IGNORECASE`. -/
def tablePattern (kw : String) (name : Regex) : Guarded :=
  { before := wordBoundary i, pattern := spaced kw (group "1" name), after := anywhere }

/-- `\bDELETE\s+FROM\s+(name)` with `re.IGNORECASE`. -/
def deletePattern (name : Regex) : Guarded :=
  { before := wordBoundary i
    pattern := spaced "DELETE" (spaced "FROM" (group "1" name))
    after := anywhere }

/-- `_TABLE_PATTERNS` and `_QUOTED_TABLE_PATTERNS`. -/
def tablePatterns (name : Regex) : List Guarded :=
  [tablePattern i "FROM" name, tablePattern i "JOIN" name, tablePattern i "INTO" name,
    tablePattern i "UPDATE" name, deletePattern i name]

def complexPatterns : List (Guarded × String) :=
  [({ before := wordBoundary i
      pattern :=
        spaced "WITH" (seq (plus (chars (isWordChar i))) (seq (plus (chars isSpace))
          (seq (textIgnoreCase "AS") (seq (star (chars isSpace)) (char '(')))))
      after := anywhere }, "CTE"),
    ({ before := anywhere
       pattern := seq (char '(') (seq (star (chars isSpace)) (textIgnoreCase "SELECT"))
       after := wordBoundary i }, "subquery")]

def recursiveCtePattern : Guarded :=
  { before := wordBoundary i
    pattern := spaced "WITH" (textIgnoreCase "RECURSIVE")
    after := wordBoundary i }

/-! ## Extraction -/

def detectComplexity (sql : String) : Option String :=
  (complexPatterns i).findSome? fun p => if (p.1.search sql).isSome then some p.2 else none

def extractTables (sql : String) : Finset String :=
  ((tablePatterns i tableIdentifier).flatMap fun pattern => pattern.findall "1" sql).toFinset

def unquoteIdentifier (quoted : String) : String :=
  match splitText "\".\"" quoted with
  | [schema, table] => stripChar '"' schema ++ "." ++ stripChar '"' table
  | _ => stripChar '"' quoted

def extractQuotedTables (sql : String) : Finset String :=
  ((tablePatterns i quotedIdentifier).flatMap fun pattern =>
    (pattern.findall "1" sql).map unquoteIdentifier).toFinset

def stripSingleQuotedStrings (sql : String) : String := singleQuoteStringPattern.erase sql

def extractTablesRegex (normalizedSql : String) : Finset String :=
  let quotedTables := extractQuotedTables i normalizedSql
  let unquotedTables := extractTables i (stripSingleQuotedStrings normalizedSql)
  unquotedTables ∪ quotedTables

structure ParserResult where
  tables : Finset String
  cteNames : Finset String
  success : Bool
  error : Option String := none

/-- The parser: `has_parser` and `extract_tables_with_parser`. -/
structure SqlParser where
  hasParser : Bool
  extractTablesWithParser : String → Option ParserResult

def extractAllTables (parser : SqlParser) (sql opName : String) : Finset String × List String :=
  let normalizedSql := normalizeSql sql
  let sqlStripped := stripSqlStrings normalizedSql
  if ((recursiveCtePattern i).search sqlStripped).isSome then
    (∅, ["Operation '" ++ opName ++ "': SQL contains WITH RECURSIVE which cannot be " ++
      "reliably validated. Recursive CTEs are not supported (see OMN-1919)."])
  else
    match detectComplexity i sqlStripped with
    | none => (extractTablesRegex i normalizedSql, [])
    | some complexity =>
      if !parser.hasParser then
        (∅, ["Operation '" ++ opName ++ "': SQL contains " ++ complexity ++ " which requires " ++
          "the sql-parser extra for validation. Install with: " ++
          "pip install omnibase_core[sql-parser]"])
      else
        match parser.extractTablesWithParser normalizedSql with
        | none =>
          (∅, ["Operation '" ++ opName ++ "': Parser unexpectedly unavailable for " ++
            complexity ++ "."])
        | some result =>
          if !result.success then
            (∅, ["Operation '" ++ opName ++ "': Failed to parse SQL containing " ++ complexity ++
              ". " ++ "Parser error: " ++ result.error.getD "None"])
          else (result.tables \ result.cteNames, [])

/-! ## The allowed tables -/

/-- `_build_allowed_sets`: the exact ones and the simple ones. -/
def buildAllowedSets (tables : List String) : Finset String × Finset String :=
  tables.foldl
    (fun allowed table =>
      if '.' ∈ table.toList then (insert (i.lower table) allowed.1, allowed.2)
      else (allowed.1, insert (i.lower table) allowed.2))
    (∅, ∅)

def isTableAllowed (table : String) (allowedExact allowedSimple : Finset String) : Bool :=
  let tableLower := i.lower table
  if '.' ∈ table.toList then
    if tableLower ∈ allowedExact then true
    else decide ((splitAt '.' tableLower).getLastD "" ∈ allowedSimple)
  else if tableLower ∈ allowedSimple then true
  else decide (tableLower ∈ allowedExact)

/-- `str` of a list of texts. -/
def listRepr (l : List String) : String := "[" ++ ", ".intercalate (l.map i.repr) ++ "]"

def operationErrors (σ : SetOrder String) (parser : SqlParser)
    (contract : ModelDbRepositoryContract) (op : String × ModelDbOperation) : List String :=
  let allowed := buildAllowedSets i contract.tables
  let extracted := extractAllTables i parser op.2.sql op.1
  if extracted.2 ≠ [] then extracted.2
  else
    ((σ.iter extracted.1).filter fun table => !isTableAllowed i table allowed.1 allowed.2).map
      fun table =>
        "Operation '" ++ op.1 ++ "': Table '" ++ table ++ "' is not in allowed tables list. " ++
          "Allowed: " ++ listRepr i (sortedAsc id contract.tables)

def validateDbTableAccess (σ : SetOrder String) (parser : SqlParser)
    (contract : ModelDbRepositoryContract) : ModelValidationResult :=
  let errors := contract.ops.flatMap (operationErrors i σ parser contract)
  if errors ≠ [] then
    createInvalid errors
      ("Table access validation failed with " ++ toString errors.length ++ " error(s)")
  else createValid "Table access validation passed: all operations use only declared tables"

end

example : extractTablesRegex asciiText "SELECT * FROM a.b JOIN \"c\" x ON 1 = 1, d" = {"a.b", "c"} := by
  decide +kernel

/-!
## Which tables `validate_db_table_access` sees

* `mem_extractTablesRegex`: the names that are extracted are those that are read, from left to
  right, directly behind `FROM`, `JOIN`, `INTO` or `UPDATE` (`ReadName`).
* `isTableAllowed_iff`: a name passes if a declared table lets it pass (`Admits`).
* `validateDbTableAccess_isValid_iff`: when there is no error.
-/

open Regex Sql Validation

/-! ## Names -/

/-- How far an unquoted name without a schema reaches. -/
def identifierReach : List Char → Option ℕ :=
  takeOne identifierStart fun s => some (s.takeWhile identifierChar).length

/-- How far a `"` reaches that closes after at most `n` characters. -/
def closingReach (n : ℕ) (s : List Char) : Option ℕ :=
  if (s.takeWhile (· ≠ '"')).length ≤ n then
    (takeOne (· = '"') fun _ => some 0) (s.dropWhile (· ≠ '"')) |>.map
      ((s.takeWhile (· ≠ '"')).length + ·)
  else none

/-- How far a quoted name without a schema reaches. -/
def quotedReach : List Char → Option ℕ :=
  takeOne (· = '"') (takeOne (· ≠ '"') (closingReach 127))

/-- How far a name reaches, with its schema if there is one. -/
def qualifiedReach (f : List Char → Option ℕ) (s : List Char) : Option ℕ :=
  (f s).bind fun n => some (n + ((takeOne (· = '.') f (s.drop n)).getD 0))

theorem takes_identifierPart : Takes identifierPart identifierReach :=
  takes_seq_chars takes_star_chars

theorem takes_chars {p : Char → Bool} : Takes (chars p) (takeOne p fun _ => some 0) := by
  intro s k _
  cases hrest : s.rest with
  | nil => exact run_chars_nil hrest
  | cons c rest =>
    rw [run_chars_cons hrest, takeOne]
    split_ifs <;> rfl

theorem takes_closing (n : ℕ) :
    Takes (seq (upTo (chars (· ≠ '"')) n) (chars (· = '"'))) (closingReach n) := by
  intro s k hk
  have hreject : ∀ s' : Place, (∃ c ∈ s'.rest.head?, decide (c ≠ '"') = true) →
      run (chars (· = '"')) s' k = none := by
    rintro s' ⟨c, hc, hquote⟩
    apply run_chars_eq_none
    intro d hd
    rw [Option.mem_unique hd hc]
    simpa using hquote
  rw [run_seq, run_upTo_chars hreject]
  unfold closingReach
  split_ifs with hle
  · rw [takes_chars _ k hk, Place.rest_advance]
    have hdrop : s.rest.drop (s.rest.takeWhile (· ≠ '"')).length = s.rest.dropWhile (· ≠ '"') := by
      have hleft : (s.rest.takeWhile (· ≠ '"') ++ s.rest.dropWhile (· ≠ '"')).drop
        (s.rest.takeWhile (· ≠ '"')).length = s.rest.dropWhile (· ≠ '"') := List.drop_left
      rwa [List.takeWhile_append_dropWhile] at hleft
    rw [hdrop]
    cases takeOne (· = '"') (fun _ => some 0) (s.rest.dropWhile (· ≠ '"')) with
    | none => rfl
    | some n =>
      dsimp only [Option.map_some, Option.bind_some]
      rw [advance_advance]
  · rfl

theorem takes_quotedPart : Takes quotedPart quotedReach :=
  takes_seq_chars (takes_seq_chars (takes_closing 127))

variable {f : List Char → Option ℕ}

theorem takes_qualified {r : Regex} (hr : Takes r f) :
    Takes (seq r (opt (seq (chars (· = '.')) r))) (qualifiedReach f) := by
  intro s k hk
  rw [takes_seq hr (takes_opt (takes_seq_chars hr)) (fun _ => rfl) s k hk]
  rfl

theorem takes_tableIdentifier : Takes tableIdentifier (qualifiedReach identifierReach) :=
  takes_qualified takes_identifierPart

theorem takes_quotedIdentifier : Takes quotedIdentifier (qualifiedReach quotedReach) :=
  takes_qualified takes_quotedPart

variable {s : List Char}

theorem qualifiedReach_eq_none (h : f s = none) :
    qualifiedReach f s = none := by
  unfold qualifiedReach
  rw [h]
  rfl

variable {c : Char}

theorem takeOne_eq_none {p : Char → Bool} (h : p c = false) :
    takeOne p f (c :: s) = none := by
  rw [takeOne, h, if_neg Bool.false_ne_true]

theorem identifierReach_of_isSpace (hc : isSpace c = true) :
    qualifiedReach identifierReach (c :: s) = none := by
  apply qualifiedReach_eq_none
  apply takeOne_eq_none
  have hval : c.val.toNat = c.toNat := rfl
  unfold isSpace at hc
  unfold identifierStart Char.isAlpha Char.isUpper Char.isLower
  simp only [Bool.or_eq_true, Bool.and_eq_true, decide_eq_true_eq] at hc
  simp [UInt32.le_iff_toNat_le, Char.ext_iff, UInt32.ext_iff]
  omega

theorem quotedReach_of_isSpace (hc : isSpace c = true) :
    qualifiedReach quotedReach (c :: s) = none := by
  apply qualifiedReach_eq_none
  apply takeOne_eq_none
  rw [decide_eq_false_iff_not]
  rintro rfl
  exact absurd hc (by decide)

def tableKeywords : List (List String) :=
  [["FROM"], ["JOIN"], ["INTO"], ["UPDATE"], ["DELETE", "FROM"]]

theorem tablePatterns_eq (i : TextInterpreter) (name : Regex) :
    tablePatterns i name = tableKeywords.map fun kws => namePattern (wordBoundary i) kws name := rfl

/-! ## The names of a statement -/

/-- A name that is read behind `FROM`, `JOIN`, `INTO` or `UPDATE`: an unquoted one in a text without
literals, a quoted one in the whole text. -/
inductive ReadName (i : TextInterpreter) (unliteral whole : List Char) : String → Prop
  | unquoted {kws : List String} {w : List Char} (hkws : kws ∈ tableKeywords)
    (hw : w ∈ namesFrom (wordBoundary i) kws (qualifiedReach identifierReach) none 0 unliteral) :
    ReadName i unliteral whole (String.ofList w)
  | quoted {kws : List String} {w : List Char} (hkws : kws ∈ tableKeywords)
    (hw : w ∈ namesFrom (wordBoundary i) kws (qualifiedReach quotedReach) none 0 whole) :
    ReadName i unliteral whole (unquoteIdentifier (String.ofList w))

section
variable {i : TextInterpreter} {r : Regex}

theorem mem_findall_tablePatterns (hr : Takes r f)
    (hspace : ∀ c s, isSpace c = true → f (c :: s) = none) {sql name : String} :
    (∃ pattern ∈ tablePatterns i r, name ∈ pattern.findall "1" sql) ↔
      ∃ kws ∈ tableKeywords, ∃ w ∈ namesFrom (wordBoundary i) kws f none 0 sql.toList,
        String.ofList w = name := by
  have hkeywords : ∀ kws ∈ tableKeywords, Lettered kws ∧ kws ≠ [] := by decide +kernel
  rw [tablePatterns_eq]
  simp only [List.mem_map, exists_exists_and_eq_and]
  refine exists_congr fun kws => and_congr_right fun hkws => ?_
  obtain ⟨hlettered, hne⟩ := hkeywords kws hkws
  rw [findall_spaced hlettered hne hr hspace, List.mem_map]

theorem mem_extractTablesRegex {sql name : String} :
    name ∈ extractTablesRegex i sql ↔
      ReadName i (stripSingleQuotedStrings sql).toList sql.toList name := by
  unfold extractTablesRegex extractTables extractQuotedTables
  dsimp only
  rw [Finset.mem_union, List.mem_toFinset, List.mem_toFinset, List.mem_flatMap, List.mem_flatMap,
    mem_findall_tablePatterns takes_tableIdentifier fun _ _ => identifierReach_of_isSpace]
  constructor
  · rintro (⟨kws, hkws, w, hw, rfl⟩ | ⟨pattern, hpattern, hname⟩)
    · exact .unquoted hkws hw
    · obtain ⟨quoted, hquoted, rfl⟩ := List.mem_map.mp hname
      obtain ⟨kws, hkws, w, hw, rfl⟩ :=
        (mem_findall_tablePatterns takes_quotedIdentifier fun _ _ => quotedReach_of_isSpace).mp ⟨pattern, hpattern, hquoted⟩
      exact .quoted hkws hw
  · rintro (⟨hkws, hw⟩ | ⟨hkws, hw⟩)
    · exact .inl ⟨_, hkws, _, hw, rfl⟩
    · obtain ⟨pattern, hpattern, hquoted⟩ :=
        (mem_findall_tablePatterns takes_quotedIdentifier fun _ _ => quotedReach_of_isSpace).mpr ⟨_, hkws, _, hw, rfl⟩
      exact .inr ⟨pattern, hpattern, List.mem_map_of_mem hquoted⟩

end

/-! ## Which tables are allowed -/

def Admits (i : TextInterpreter) (declared name : String) : Prop :=
  if '.' ∈ name.toList ∧ '.' ∉ declared.toList then
    (splitAt '.' (i.lower name)).getLastD "" = i.lower declared
  else i.lower name = i.lower declared

theorem mem_buildAllowedSets {i : TextInterpreter} {tables : List String} {name : String} :
    (name ∈ (buildAllowedSets i tables).1 ↔ ∃ t ∈ tables, '.' ∈ t.toList ∧ name = i.lower t) ∧
      (name ∈ (buildAllowedSets i tables).2 ↔
        ∃ t ∈ tables, '.' ∉ t.toList ∧ name = i.lower t) := by
  have hfold : ∀ (tables : List String) (allowed : Finset String × Finset String),
      let sets := tables.foldl
        (fun allowed table =>
          if '.' ∈ table.toList then (insert (i.lower table) allowed.1, allowed.2)
          else (allowed.1, insert (i.lower table) allowed.2)) allowed
      (name ∈ sets.1 ↔ name ∈ allowed.1 ∨ ∃ t ∈ tables, '.' ∈ t.toList ∧ name = i.lower t) ∧
        (name ∈ sets.2 ↔ name ∈ allowed.2 ∨ ∃ t ∈ tables, '.' ∉ t.toList ∧ name = i.lower t) := by
    intro tables
    induction tables with
    | nil => simp
    | cons t tables ih =>
      intro allowed
      dsimp only
      rw [List.foldl_cons]
      obtain ⟨hexact, hsimple⟩ := ih (if '.' ∈ t.toList then
        (insert (i.lower t) allowed.1, allowed.2) else (allowed.1, insert (i.lower t) allowed.2))
      rw [hexact, hsimple]
      by_cases hdot : '.' ∈ t.toList
      · simp [hdot, or_assoc, or_left_comm]
      · simp [hdot, or_assoc, or_left_comm]
  have h := hfold tables (∅, ∅)
  simpa [buildAllowedSets] using h

theorem isTableAllowed_iff {i : TextInterpreter} {tables : List String} {name : String} :
    isTableAllowed i name (buildAllowedSets i tables).1 (buildAllowedSets i tables).2 = true ↔
      ∃ t ∈ tables, Admits i t name := by
  unfold isTableAllowed Admits
  dsimp only
  by_cases hdot : '.' ∈ name.toList
  · rw [if_pos hdot]
    split_ifs with hexact
    · rw [mem_buildAllowedSets.1] at hexact
      obtain ⟨t, ht, hdeclared, hname⟩ := hexact
      refine iff_of_true rfl ⟨t, ht, ?_⟩
      rwa [if_neg fun h => h.2 hdeclared]
    · rw [decide_eq_true_eq, mem_buildAllowedSets.2]
      refine exists_congr fun t => and_congr_right fun ht => ?_
      by_cases hdeclared : '.' ∈ t.toList
      · rw [if_neg fun h => h.2 hdeclared]
        refine iff_of_false (fun h => h.1 hdeclared) fun h => hexact ?_
        exact mem_buildAllowedSets.1.mpr ⟨t, ht, hdeclared, h⟩
      · rw [if_pos ⟨hdot, hdeclared⟩]
        exact and_iff_right hdeclared
  · have hneither : (i.lower name ∈ (buildAllowedSets i tables).2 ∨
        i.lower name ∈ (buildAllowedSets i tables).1) ↔ ∃ t ∈ tables, i.lower name = i.lower t := by
      rw [mem_buildAllowedSets.1, mem_buildAllowedSets.2, ← exists_or]
      refine exists_congr fun t => ?_
      rw [← and_or_left, ← or_and_right]
      exact and_congr_right fun _ => and_iff_right (em _).symm
    rw [if_neg hdot]
    simp only [hdot, false_and, if_false, ← hneither]
    split_ifs with hsimple <;> simp [hsimple]

/-! ## Errors -/

section
variable {i : TextInterpreter} {σ : SetOrder String} {parser : SqlParser}
  {contract : ModelDbRepositoryContract} {sql opName : String}

theorem validateDbTableAccess_isValid_iff :
    (validateDbTableAccess i σ parser contract).isValid = true ↔
      ∀ op ∈ contract.ops, operationErrors i σ parser contract op = [] := by
  rw [← List.flatMap_eq_nil_iff]
  unfold validateDbTableAccess createValid createInvalid
  dsimp only
  split_ifs with h
  · exact iff_of_false id h
  · exact iff_of_true rfl (not_not.mp h)

theorem operationErrors_eq_nil_iff {op : String × ModelDbOperation} :
    operationErrors i σ parser contract op = [] ↔
      (extractAllTables i parser op.2.sql op.1).2 = [] ∧
        ∀ name ∈ (extractAllTables i parser op.2.sql op.1).1, ∃ t ∈ contract.tables,
          Admits i t name := by
  unfold operationErrors
  dsimp only
  split_ifs with h
  · exact iff_of_false h fun h' => h h'.1
  · rw [and_iff_right (not_not.mp h), List.map_eq_nil_iff, List.filter_eq_nil_iff]
    simp only [Bool.not_eq_true', Bool.not_eq_false, isTableAllowed_iff, σ.mem_iter]

theorem extractAllTables_recursive
    (h : ((recursiveCtePattern i).search (stripSqlStrings (normalizeSql sql))).isSome = true) :
    (extractAllTables i parser sql opName).2 ≠ [] := by
  unfold extractAllTables
  dsimp only
  rw [if_pos h]
  exact List.cons_ne_nil _ _

theorem extractAllTables_simple
    (h : ((recursiveCtePattern i).search (stripSqlStrings (normalizeSql sql))).isSome = false)
    (hsimple : detectComplexity i (stripSqlStrings (normalizeSql sql)) = none) :
    extractAllTables i parser sql opName = (extractTablesRegex i (normalizeSql sql), []) := by
  unfold extractAllTables
  dsimp only
  rw [h, if_neg Bool.false_ne_true, hsimple]

theorem extractAllTables_complex {complexity : String} {result : ParserResult}
    (h : ((recursiveCtePattern i).search (stripSqlStrings (normalizeSql sql))).isSome = false)
    (hcomplex : detectComplexity i (stripSqlStrings (normalizeSql sql)) = some complexity)
    (hparser : parser.hasParser = true)
    (hresult : parser.extractTablesWithParser (normalizeSql sql) = some result)
    (hsuccess : result.success = true) :
    extractAllTables i parser sql opName = (result.tables \ result.cteNames, []) := by
  unfold extractAllTables
  dsimp only
  rw [h, if_neg Bool.false_ne_true, hcomplex]
  dsimp only
  rw [hparser, hresult]
  dsimp only
  rw [hsuccess]
  rfl

end

end OmnibaseCore.Database
