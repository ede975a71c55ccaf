import OmnibaseCore.Database.Contract
import OmnibaseCore.Database.StripTheorems
import OmnibaseCore.Regex.Keyword
import OmnibaseCore.Sql.Statement

/-!
# `validate_db_sql_safety`

The keywords of the data definition language, the verb of the statement, and semicolons are looked
for in the text that `normalize_sql` and `strip_sql_strings` leave.
-/

namespace OmnibaseCore.Database

open Regex Validation

/-! ## Patterns -/

/-- The keywords of `_DDL_KEYWORDS`. -/
def ddlKeywords : List String := ["DROP", "ALTER", "TRUNCATE", "CREATE", "GRANT", "REVOKE"]

/-- `(A|B|…)`, with `re.IGNORECASE`. -/
def anyKeyword : List String → Regex
  | [] => chars fun _ => false
  | [kw] => textIgnoreCase kw
  | kw :: kws => alt (textIgnoreCase kw) (anyKeyword kws)

section
variable (i : TextInterpreter)

/-- `_DDL_KEYWORDS`. -/
def ddlPattern : Guarded :=
  { before := wordBoundary i
    pattern := group "1" (anyKeyword ddlKeywords)
    after := wordBoundary i }

/-- `^\s*KEYWORD\b` with `re.IGNORECASE`. -/
def statementPattern (kw : String) : Guarded :=
  { before := anywhere
    pattern := seq (star (chars isSpace)) (textIgnoreCase kw)
    after := wordBoundary i }

def wherePattern : Guarded :=
  { before := wordBoundary i, pattern := textIgnoreCase "WHERE", after := wordBoundary i }

/-- `bool(pattern.match(sql))`, for a pattern that begins with `^`. -/
def startsStatement (kw sql : String) : Bool :=
  ((statementPattern i kw).matchAt none sql.toList).isSome

/-! ## The checks -/

/-- The check of `mode == "read"`. -/
def readErrors (opName normalizedSql : String) : List String :=
  if !startsStatement i "SELECT" normalizedSql then
    ["Operation '" ++ opName ++ "': read mode requires SELECT statement, " ++
      "but SQL starts with different keyword."]
  else []

def writeErrors (opName : String) (safetyPolicy : ModelDbSafetyPolicy)
    (normalizedSql sqlWithoutStrings : String) : List String :=
  let isInsert := startsStatement i "INSERT" normalizedSql
  let isUpdate := startsStatement i "UPDATE" normalizedSql
  let isDelete := startsStatement i "DELETE" normalizedSql
  let hasWhere := ((wherePattern i).search sqlWithoutStrings).isSome
  (if !(isInsert || isUpdate || isDelete) then
    ["Operation '" ++ opName ++
      "': write mode requires INSERT, UPDATE, or DELETE statement."]
  else []) ++
  (if isDelete && !hasWhere && !safetyPolicy.allowDeleteWithoutWhere then
    ["Operation '" ++ opName ++ "': DELETE without WHERE clause is dangerous. " ++
      "Add WHERE clause or set safety_policy.allow_delete_without_where=True."]
  else []) ++
  if isUpdate && !hasWhere && !safetyPolicy.allowUpdateWithoutWhere then
    ["Operation '" ++ opName ++ "': UPDATE without WHERE clause is dangerous. " ++
      "Add WHERE clause or set safety_policy.allow_update_without_where=True."]
  else []

/-- The text without the whitespace at its end, and without the semicolons before that. -/
def sqlForMultiCheck (sqlWithoutStrings : String) : String :=
  rstripChar ';' (rstrip sqlWithoutStrings)

def multiErrors (opName : String) (safetyPolicy : ModelDbSafetyPolicy)
    (sqlWithoutStrings : String) : List String :=
  if ';' ∈ (sqlForMultiCheck sqlWithoutStrings).toList ∧
      safetyPolicy.allowMultiStatement = false then
    ["Operation '" ++ opName ++ "': Multiple statements detected (semicolon found). " ++
      "Use single statement or set safety_policy.allow_multi_statement=True."]
  else []

def safetyErrors (op : String × ModelDbOperation) : List String :=
  let normalizedSql := normalizeSql op.2.sql
  let sqlWithoutStrings := stripSqlStrings normalizedSql
  match (ddlPattern i).search sqlWithoutStrings with
  | some ddlMatch =>
    ["Operation '" ++ op.1 ++ "': Forbidden DDL keyword '" ++
      (ddlMatch.group "1").getD "None" ++ "' detected. " ++
      "DDL operations are not allowed in repository contracts."]
  | none =>
    (match op.2.mode with
      | .read => readErrors i op.1 normalizedSql
      | .write => writeErrors i op.1 op.2.safetyPolicy normalizedSql sqlWithoutStrings) ++
      multiErrors op.1 op.2.safetyPolicy sqlWithoutStrings

def validateDbSqlSafety (contract : ModelDbRepositoryContract) : ModelValidationResult :=
  let errors := contract.ops.flatMap (safetyErrors i)
  if errors ≠ [] then
    createInvalid errors
      ("SQL safety validation failed with " ++ toString errors.length ++ " error(s)")
  else
    createValid ("SQL safety validation passed for " ++ toString contract.ops.length ++
      " operation(s)")

end

/-!
## What the safety validator enforces

A statement is to hold no keyword of the data definition language and no second statement, and the
validator looks for both in a text that has been rewritten. It enforces this just if every
statement that is not harmless is caught in that text (`enforced_iff`). In a plain statement
nothing is hidden but what stands next to a cut (`enforced_of_apart`).
-/

open Regex Sql

/-! ## What is to be enforced -/

def WordAt (i : TextInterpreter) (before after : List Lexeme) : Prop :=
  (∀ c, before.getLast? = some (.char c) → isWordChar i c = false) ∧
    ∀ c, after.head? = some (.char c) → isWordChar i c = false

/-- A keyword of the data definition language stands outside of comments, literals and quoted
identifiers. -/
def HasDdl (i : TextInterpreter) (ls : List Lexeme) : Prop :=
  ∃ kw ∈ ddlKeywords, ∃ (before : List Lexeme) (w : List Char) (after : List Lexeme),
    ls = before ++ w.map Lexeme.char ++ after ∧
      w.map Char.toLower = kw.toList.map Char.toLower ∧ WordAt i before after

/-- Behind a semicolon there is nothing but whitespace and comments. -/
def SingleStatement (ls : List Lexeme) : Prop :=
  ∀ before after, ls = before ++ .char ';' :: after → ∀ l ∈ after, l.isBlank = true

/-- A single statement without a keyword of the data definition language. -/
structure Harmless (i : TextInterpreter) (ls : List Lexeme) : Prop where
  noDdl : ¬ HasDdl i ls
  single : SingleStatement ls

/-- Nothing is reported about the operation. -/
def Unreported (i : TextInterpreter) (contract : ModelDbRepositoryContract)
    (op : String × ModelDbOperation) : Prop :=
  ∀ error ∈ safetyErrors i op, error ∉ (validateDbSqlSafety i contract).errors

/-- An operation with the statement about which nothing is reported, although it may not have
several statements, is harmless. -/
def Enforced (i : TextInterpreter) (ls : List Lexeme) : Prop :=
  ∀ contract : ModelDbRepositoryContract, ∀ op ∈ contract.ops,
    op.2.sql = String.ofList (text ls) → op.2.safetyPolicy.allowMultiStatement = false →
      Unreported i contract op → Harmless i ls

/-- The verbs of the statements that operations may have. -/
def verbs : List String := ["SELECT", "INSERT", "UPDATE", "DELETE"]

/-- What is left of a statement has a keyword of the data definition language, or a semicolon in
front of those at its end, or it begins with none of the verbs. -/
def Caught (i : TextInterpreter) (normalizedSql sqlWithoutStrings : String) : Prop :=
  ((ddlPattern i).search sqlWithoutStrings).isSome = true ∨
  ';' ∈ (sqlForMultiCheck sqlWithoutStrings).toList ∨
  ∀ verb ∈ verbs, startsStatement i verb normalizedSql = false

/-! ## Errors -/

section
variable {i : TextInterpreter}

theorem errors_validateDbSqlSafety (contract : ModelDbRepositoryContract) :
    (validateDbSqlSafety i contract).errors = contract.ops.flatMap (safetyErrors i) := by
  unfold validateDbSqlSafety
  dsimp only
  split_ifs with h
  · rfl
  · exact (not_not.mp h).symm

theorem unreported_iff {contract : ModelDbRepositoryContract} {op : String × ModelDbOperation}
    (hop : op ∈ contract.ops) : Unreported i contract op ↔ safetyErrors i op = [] := by
  unfold Unreported
  rw [errors_validateDbSqlSafety, List.eq_nil_iff_forall_not_mem]
  refine forall_congr' fun error => ⟨fun h herror => ?_, fun h herror => absurd herror h⟩
  exact h herror (List.mem_flatMap.mpr ⟨op, hop, herror⟩)

theorem multiErrors_eq_nil_iff {opName sql : String} {policy : ModelDbSafetyPolicy}
    (hpolicy : policy.allowMultiStatement = false) :
    multiErrors opName policy sql = [] ↔ ';' ∉ (sqlForMultiCheck sql).toList := by
  unfold multiErrors
  rw [hpolicy]
  simp

/-- A statement that is caught is reported. -/
theorem safetyErrors_ne_nil {op : String × ModelDbOperation}
    (hpolicy : op.2.safetyPolicy.allowMultiStatement = false)
    (h : Caught i (normalizeSql op.2.sql) (stripSqlStrings (normalizeSql op.2.sql))) :
    safetyErrors i op ≠ [] := by
  unfold safetyErrors
  dsimp only
  rcases hsearch : (ddlPattern i).search (stripSqlStrings (normalizeSql op.2.sql)) with _ | m
  · dsimp only
    rw [Ne, List.append_eq_nil_iff, multiErrors_eq_nil_iff hpolicy]
    rintro ⟨hmode, hmulti⟩
    rcases h with hddl | hsemicolon | hverb
    · rw [hsearch] at hddl
      exact nomatch hddl
    · exact hmulti hsemicolon
    · have hselect := hverb "SELECT" (by decide)
      have hinsert := hverb "INSERT" (by decide)
      have hupdate := hverb "UPDATE" (by decide)
      have hdelete := hverb "DELETE" (by decide)
      cases hop : op.2.mode with
      | read =>
        rw [hop] at hmode
        unfold readErrors at hmode
        rw [hselect] at hmode
        exact nomatch hmode
      | write =>
        rw [hop] at hmode
        unfold writeErrors at hmode
        rw [hinsert, hupdate, hdelete] at hmode
        exact nomatch hmode
  · exact List.cons_ne_nil _ _

/-- A statement that is not caught stands in some contract that is accepted. -/
theorem exists_unreported {sql : String}
    (h : ¬ Caught i (normalizeSql sql) (stripSqlStrings (normalizeSql sql))) :
    ∃ contract : ModelDbRepositoryContract, ∃ op ∈ contract.ops, op.2.sql = sql ∧
      op.2.safetyPolicy.allowMultiStatement = false ∧ Unreported i contract op := by
  unfold Caught at h
  push Not at h
  rcases h with ⟨hddl, hmulti, verb, hverb, hstarts⟩
  replace hstarts := Bool.eq_true_of_not_eq_false hstarts
  have hlength : 1 ≤ sql.length := by
    by_contra hempty
    have hnil : sql = "" := by
      rw [← String.toList_inj]
      exact List.length_eq_zero_iff.mp (by rw [String.length_toList]; omega)
    have hnormal : normalizeSql "" = "" := by decide +kernel
    rw [hnil, hnormal] at hstarts
    unfold startsStatement at hstarts
    rw [show "".toList = [] from rfl, Guarded.matchAt_nil] at hstarts
    exact nomatch hstarts
  have hsearch : (ddlPattern i).search (stripSqlStrings (normalizeSql sql)) = none := by
    cases hsome : (ddlPattern i).search (stripSqlStrings (normalizeSql sql)) with
    | none => rfl
    | some m => exact absurd (hsome ▸ rfl) hddl
  -- everything else is allowed
  let policy : ModelDbSafetyPolicy :=
    { allowDeleteWithoutWhere := true, allowUpdateWithoutWhere := true }
  let op : String × ModelDbOperation :=
    ("op", { mode := if verb = "SELECT" then .read else .write
             sql := sql
             safetyPolicy := policy
             sql_length := hlength })
  refine ⟨{ tables := ["t"], ops := [op], tables_length := by decide, ops_length := by simp,
            ops_nodup := by simp }, op, List.mem_singleton_self op, rfl, rfl, ?_⟩
  rw [unreported_iff (List.mem_singleton_self op)]
  unfold safetyErrors
  dsimp only [op]
  rw [hsearch]
  dsimp only
  have hpolicy : policy.allowMultiStatement = false := rfl
  rw [(multiErrors_eq_nil_iff hpolicy).mpr hmulti, List.append_nil]
  simp only [verbs, List.mem_cons, List.not_mem_nil, or_false] at hverb
  rcases hverb with rfl | rfl | rfl | rfl
  · rw [if_pos rfl]
    unfold readErrors
    rw [hstarts]
    rfl
  · rw [if_neg (by decide)]
    unfold writeErrors
    rw [hstarts]
    simp [policy]
  · rw [if_neg (by decide)]
    unfold writeErrors
    rw [hstarts]
    simp [policy]
  · rw [if_neg (by decide)]
    unfold writeErrors
    rw [hstarts]
    simp [policy]

theorem enforced_iff_caught {ls : List Lexeme} :
    Enforced i ls ↔ Harmless i ls ∨ Caught i (normalizeSql (String.ofList (text ls)))
      (stripSqlStrings (normalizeSql (String.ofList (text ls)))) := by
  constructor
  · intro henforced
    by_contra hneither
    rw [not_or] at hneither
    rcases exists_unreported hneither.2 with ⟨contract, op, hop, hsql, hpolicy, hunreported⟩
    exact hneither.1 (henforced contract op hop hsql hpolicy hunreported)
  · rintro (hharmless | hcaught) contract op hop hsql hpolicy hunreported
    · exact hharmless
    · rw [unreported_iff hop] at hunreported
      rw [← hsql] at hcaught
      exact absurd hunreported (safetyErrors_ne_nil hpolicy hcaught)

end

/-! ## Plain statements -/

/-- Nothing is hidden by a cut. The characters next to a keyword of the data definition language,
when all else is cut, are no characters of a word, and what is left behind a semicolon that does
not end the statement is not only whitespace and semicolons. -/
structure Apart (i : TextInterpreter) (ls : List Lexeme) : Prop where
  words : ∀ kw ∈ ddlKeywords, ∀ (before : List Lexeme) (w : List Char) (after : List Lexeme),
    ls = before ++ w.map Lexeme.char ++ after → w.map Char.toLower = kw.toList.map Char.toLower →
      WordAt i before after →
        (∀ c ∈ (bare before).getLast?, isWordChar i c = false) ∧
          ∀ c ∈ (bare after).head?, isWordChar i c = false
  semicolons : ∀ before after, ls = before ++ .char ';' :: after →
    (∀ l ∈ after, l.isBlank = true) ∨ ∃ c ∈ bare after, isSpace c = false ∧ c ≠ ';'

section
variable {i : TextInterpreter}

theorem sameLetter_of_toLower {k c : Char} (h : c.toLower = k.toLower) : sameLetter k c = true := by
  unfold sameLetter
  rw [h]
  simp

theorem behindText_word {kw w rest : List Char} (h : w.map Char.toLower = kw.map Char.toLower) :
    behindText kw (w ++ rest) = some rest := by
  induction kw generalizing w with
  | nil =>
    rw [List.map_nil, List.map_eq_nil_iff] at h
    rw [h]
    rfl
  | cons k kw ih =>
    cases w with
    | nil => exact nomatch h
    | cons c w =>
      rw [List.map_cons, List.map_cons, List.cons.injEq] at h
      rw [List.cons_append, behindText, if_pos (sameLetter_of_toLower h.1), ih h.2]

theorem isSome_run_anyKeyword {kw : String} {kws : List String} (hkw : kw ∈ kws) {s : Place}
    {k : Place → Option Place} (hbehind : (behindText kw.toList s.rest).isSome = true)
    (hk : (k (s.advance kw.toList.length)).isSome = true) :
    (run (anyKeyword kws) s k).isSome = true := by
  have hfirst : (run (textIgnoreCase kw) s k).isSome = true := by
    rw [run_textIgnoreCase]
    rcases Option.isSome_iff_exists.mp hbehind with ⟨rest, hrest⟩
    rw [hrest]
    exact hk
  induction kws with
  | nil => exact nomatch hkw
  | cons kw' kws ih =>
    cases kws with
    | nil =>
      rw [List.mem_singleton] at hkw
      rw [← hkw]
      exact hfirst
    | cons kw'' kws =>
      show (run (textIgnoreCase kw') s k <|> run (anyKeyword (kw'' :: kws)) s k).isSome = true
      rw [Option.orElse_eq_orElse, Option.orElse_eq_or, Option.isSome_or, Bool.or_eq_true]
      rcases List.mem_cons.mp hkw with rfl | hkw
      · exact Or.inl hfirst
      · exact Or.inr (ih hkw)

theorem run_anyKeyword_eq_some {kws : List String} (hkws : ∀ kw ∈ kws, 0 < kw.toList.length)
    {s t : Place} {k : Place → Option Place} (h : run (anyKeyword kws) s k = some t) :
    ∃ n, 0 < n ∧ n ≤ s.rest.length ∧ k (s.advance n) = some t := by
  have hone : ∀ kw : String, 0 < kw.toList.length → run (textIgnoreCase kw) s k = some t →
      ∃ n, 0 < n ∧ n ≤ s.rest.length ∧ k (s.advance n) = some t := by
    intro kw hkw hrun
    rw [run_textIgnoreCase] at hrun
    cases hbehind : behindText kw.toList s.rest with
    | none =>
      rw [hbehind] at hrun
      exact nomatch hrun
    | some rest =>
      rw [hbehind] at hrun
      obtain ⟨w, hsplit, hw⟩ := behindText_suffix hbehind
      refine ⟨kw.toList.length, hkw, ?_, hrun⟩
      rw [hsplit, List.length_append]
      omega
  induction kws with
  | nil =>
    rw [anyKeyword] at h
    cases hrest : s.rest with
    | nil =>
      rw [run_chars_nil hrest] at h
      exact nomatch h
    | cons c rest =>
      rw [run_chars_cons hrest] at h
      exact nomatch h
  | cons kw kws ih =>
    rw [List.forall_mem_cons] at hkws
    cases kws with
    | nil => exact hone kw hkws.1 h
    | cons kw' kws =>
      have h : (run (textIgnoreCase kw) s k <|> run (anyKeyword (kw' :: kws)) s k) = some t := h
      rw [Option.orElse_eq_orElse, Option.orElse_eq_or, Option.or_eq_some_iff] at h
      rcases h with h | ⟨-, h⟩
      · exact hone kw hkws.1 h
      · exact ih hkws.2 h

/-- A keyword in any case is found between characters that are not of a word. -/
theorem search_ddlPattern {kw : String} (hkw : kw ∈ ddlKeywords) {before w after : List Char}
    (hw : w.map Char.toLower = kw.toList.map Char.toLower)
    (hbefore : ∀ c ∈ before.getLast?, isWordChar i c = false)
    (hafter : ∀ c ∈ after.head?, isWordChar i c = false) :
    ((ddlPattern i).search (String.ofList (before ++ (w ++ after)))).isSome = true := by
  have hboundary : ∀ o : Option Char, (∀ c ∈ o, isWordChar i c = false) →
      wordBoundary i o = true := by
    intro o ho
    cases o with
    | none => rfl
    | some c =>
      show (!isWordChar i c) = true
      rw [ho c rfl]
      rfl
  have hlength : w.length = kw.toList.length := by
    have hmap := congrArg List.length hw
    rwa [List.length_map, List.length_map] at hmap
  have hletters : ∀ kw ∈ ddlKeywords, 0 < kw.toList.length := by decide
  refine Guarded.search_isSome String.toList_ofList ?_
  unfold Guarded.matchAt
  rw [if_pos (show (ddlPattern i).before before.getLast? = true from hboundary _ hbefore)]
  -- the pattern matches the keyword, and any match takes a character
  have hrun : ((ddlPattern i).pattern.run
      { atStart := before.getLast?.isNone, rest := w ++ after, groups := [] }
      fun s => if (ddlPattern i).after s.rest.head? then some s else none).isSome = true := by
    refine isSome_run_anyKeyword hkw ?_ ?_
    · rw [behindText_word hw]
      rfl
    · have hright := hboundary _ hafter
      simp [ddlPattern, Place.advance, ← hlength, hright]
  rcases Option.isSome_iff_exists.mp hrun with ⟨t, ht⟩
  rcases run_anyKeyword_eq_some hletters ht with ⟨n, hpos, hle, htaken⟩
  have hrest : t.rest.length < (w ++ after).length := by
    dsimp only at htaken hle
    split_ifs at htaken
    rw [← Option.some.inj htaken, Place.rest_advance, List.length_drop]
    dsimp only
    omega
  rw [ht]
  dsimp only
  rw [if_pos hrest]
  rfl

theorem exists_dropWhile_reverse (p : Char → Bool) (before after : List Char) {c : Char}
    (hc : p c = false) : ∃ rest,
      ((before ++ c :: after).reverse.dropWhile p).reverse = before ++ c :: rest := by
  rw [List.reverse_append, List.reverse_cons, List.append_assoc, List.dropWhile_append]
  split_ifs
  · exact ⟨[], by simp [List.dropWhile_cons_of_neg, hc]⟩
  · exact ⟨((after.reverse.dropWhile p).reverse), by simp⟩

theorem mem_sqlForMultiCheck {before after : List Char} {c : Char} (hmem : c ∈ after)
    (hspace : isSpace c = false) (hc : c ≠ ';') :
    ';' ∈ (sqlForMultiCheck (String.ofList (before ++ ';' :: after))).toList := by
  rcases List.append_of_mem hmem with ⟨middle, last, rfl⟩
  have hsplit : before ++ ';' :: (middle ++ c :: last) = (before ++ ';' :: middle) ++ c :: last := by
    simp
  unfold sqlForMultiCheck rstripChar rstrip
  rw [hsplit, String.toList_ofList, String.toList_ofList, String.toList_ofList]
  rcases exists_dropWhile_reverse isSpace (before ++ ';' :: middle) last hspace with ⟨rest, hrest⟩
  rw [hrest]
  rcases exists_dropWhile_reverse (fun d => decide (d = ';')) (before ++ ';' :: middle) rest
    (decide_eq_false hc) with ⟨rest', hrest'⟩
  rw [hrest']
  simp

section
variable {ls : List Lexeme} (hblank : i.isAlnum ' ' = false) (hapart : Apart i ls)

include hblank hapart in
/-- A keyword of the statement is found once its comments and blanks are gone. -/
theorem search_of_hasDdl (h : HasDdl i ls) :
    ((ddlPattern i).search (String.ofList (bare (squeeze .lead ls)))).isSome = true := by
  rcases h with ⟨kw, hkw, before, w, after, hls, hw, hat⟩
  have hspaceless : ∀ c ∈ w, isSpace c = false := by
    intro c hc
    have hlower := List.mem_map_of_mem (f := Char.toLower) hc
    rw [hw, List.mem_map] at hlower
    rcases hlower with ⟨k, hk, hsame⟩
    have hletters : ∀ kw ∈ ddlKeywords, ∀ k ∈ kw.toList, k.isAlpha = true := by decide
    by_contra hspace
    have hfalse := sameLetter_of_isSpace (hletters kw hkw k hk) (Bool.eq_true_of_not_eq_false hspace)
    rw [sameLetter_of_toLower hsame.symm] at hfalse
    exact nomatch hfalse
  have hne : w ≠ [] := by
    intro hnil
    rw [hnil, List.map_nil] at hw
    have hletters : ∀ kw ∈ ddlKeywords, [] ≠ kw.toList.map Char.toLower := by decide
    exact hletters kw hkw hw
  have hnoWord : isWordChar i ' ' = false := by
    unfold isWordChar
    rw [hblank]
    rfl
  rcases hapart.words kw hkw before w after hls hw hat with ⟨hleft, hright⟩
  rw [hls, List.append_assoc, squeeze_append, squeeze_word hspaceless hne, bare_append, bare_append,
    bare_append, bare_chars, bare_chars, List.append_assoc, ← List.append_assoc (bare _)]
  refine search_ddlPattern hkw hw (fun c hc => ?_) fun c hc => ?_
  · rcases getLast?_bare_squeeze c hc with rfl | hmem
    · exact hnoWord
    · exact hleft c hmem
  · rcases head?_bare_squeeze_inside c hc with rfl | hmem
    · exact hnoWord
    · exact hright c hmem

include hapart in
theorem mem_multiCheck_of_not_single (h : ¬ SingleStatement ls) :
    ';' ∈ (sqlForMultiCheck (String.ofList (bare (squeeze .lead ls)))).toList := by
  unfold SingleStatement at h
  push Not at h
  rcases h with ⟨before, after, hls, l, hl, hblank⟩
  rcases hapart.semicolons before after hls with hall | ⟨c, hc, hspace, hne⟩
  · exact absurd (hall l hl) hblank
  · have hsemicolon : squeeze (behind .lead before) (Lexeme.char ';' :: after)
        = (behind .lead before).pending.map Lexeme.char ++ [.char ';'] ++ squeeze .inside after :=
      squeeze_word (w := [';']) (by decide) (List.cons_ne_nil _ _) _ _
    rw [hls, squeeze_append, hsemicolon, bare_append, bare_append, bare_append, bare_chars,
      ← List.append_assoc, ← List.append_assoc, List.append_assoc _ (bare [Lexeme.char ';'])]
    exact mem_sqlForMultiCheck (mem_bare_squeeze hspace hc) hspace hne

include hblank hapart in
theorem enforced_of_apart (hlexed : Lexed ls) (hplain : Plain ls) : Enforced i ls := by
  rw [enforced_iff_caught, stripSqlStrings_normalizeSql hlexed hplain]
  by_cases hddl : HasDdl i ls
  · exact Or.inr (Or.inl (search_of_hasDdl hblank hapart hddl))
  · by_cases hsingle : SingleStatement ls
    · exact Or.inl ⟨hddl, hsingle⟩
    · exact Or.inr (Or.inr (Or.inl (mem_multiCheck_of_not_single hapart hsingle)))

end

/-- The validator enforces what it is to enforce of a plain statement in which no cut hides a word
or a semicolon. Of a plain statement it does so just if the statement is harmless or is caught
in its own text without comments, literals and quoted identifiers; of any other, in the text that
is left. -/
theorem enforced_iff (i : TextInterpreter) (ls : List Lexeme) :
    (Lexed ls → Plain ls → Apart i ls → i.isAlnum ' ' = false → Enforced i ls) ∧
    (Lexed ls → Plain ls →
      (Enforced i ls ↔ Harmless i ls ∨ Caught i (String.ofList (text (squeeze .lead ls)))
        (String.ofList (bare (squeeze .lead ls))))) ∧
    (Enforced i ls ↔ Harmless i ls ∨ Caught i (normalizeSql (String.ofList (text ls)))
      (stripSqlStrings (normalizeSql (String.ofList (text ls))))) := by
  refine ⟨fun hlexed hplain hapart hblank => enforced_of_apart hblank hapart hlexed hplain,
    fun hlexed hplain => ?_, enforced_iff_caught⟩
  rw [enforced_iff_caught, stripSqlStrings_normalizeSql hlexed hplain,
    normalizeSql_text hlexed hplain]

end

/-! ## Statements -/

/-- `SELECT a FROM t WHERE b = 'DROP' -- c` -/
def literalKeyword : List Lexeme :=
  "SELECT a FROM t WHERE b = ".toList.map Lexeme.char ++
    [.literal "DROP".toList, .char ' ', .lineComment " c".toList]

theorem literalKeyword_enforced : Enforced asciiText literalKeyword := by
  refine (enforced_iff asciiText literalKeyword).1 (by decide +kernel)
    ⟨by decide +kernel, by decide +kernel, by decide +kernel, by decide +kernel⟩ ⟨?_, ?_⟩ rfl
  · intro kw hkw before w after hls hw _
    have hnone : ∀ kw ∈ ddlKeywords,
        ¬ kw.toList.map Char.toLower <:+: (bare literalKeyword).map Char.toLower := by
      decide +kernel
    refine absurd ⟨(bare before).map Char.toLower, (bare after).map Char.toLower, ?_⟩ (hnone kw hkw)
    rw [hls, bare_append, bare_append, bare_chars, List.map_append, List.map_append, hw]
  · intro before after hls
    have hmem : Lexeme.char ';' ∈ literalKeyword := by
      rw [hls]
      exact List.mem_append_right before List.mem_cons_self
    exact absurd hmem (by decide +kernel)

/-- `SELECT a FROM t -- it's`, and on the next line `; DROP TABLE t -- '` -/
def quoteInComment : List Lexeme :=
  "SELECT a FROM t ".toList.map Lexeme.char ++ [.lineComment " it's".toList, .char '\n'] ++
    "; DROP TABLE t ".toList.map Lexeme.char ++ [.lineComment " '".toList]

/-- Between the quotes of two comments, a second statement is not seen. -/
theorem quoteInComment_not_enforced :
    Lexed quoteInComment ∧ ¬ Enforced asciiText quoteInComment := by
  refine ⟨by decide +kernel, fun henforced => ?_⟩
  let op : String × ModelDbOperation :=
    ("op", { mode := .read
             sql := String.ofList (text quoteInComment)
             sql_length := by decide +kernel })
  have hmem : op ∈ [op] := List.mem_singleton_self op
  have hnil : safetyErrors asciiText op = [] := by decide +kernel
  have hharmless := henforced
    { tables := ["t"], ops := [op], tables_length := by decide, ops_length := by simp,
      ops_nodup := by simp } op hmem rfl rfl ((unreported_iff hmem).mpr hnil)
  refine hharmless.noDdl ⟨"DROP", by decide,
    "SELECT a FROM t ".toList.map Lexeme.char ++ [.lineComment " it's".toList, .char '\n'] ++
      "; ".toList.map Lexeme.char, "DROP".toList,
    " TABLE t ".toList.map Lexeme.char ++ [.lineComment " '".toList], by decide +kernel, rfl,
    ?_, ?_⟩
  · intro c hc
    have hblank : c = ' ' := by simpa using hc.symm
    rw [hblank]
    rfl
  · intro c hc
    have hblank : c = ' ' := by simpa using hc.symm
    rw [hblank]
    rfl

end OmnibaseCore.Database
