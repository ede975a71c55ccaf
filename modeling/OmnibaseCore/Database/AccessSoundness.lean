import OmnibaseCore.Database.TableAccess

/-!
# Whether `validate_db_table_access` is sound

A statement is validated soundly if no contract that declares too little accepts it (`Sound`). That
is so just when, for every table of the statement, a name is read that passes only where the table
is allowed (`Checked`): a table behind a comma or behind `USING` has no such name.
-/

namespace OmnibaseCore.Database

open Regex Sql Validation

section
variable (i : TextInterpreter)

/-- A declared table allows a table of a statement: a simple name in any schema, a name with a
schema only itself. -/
def Allows (declared : String) (ref : TableRef) : Prop :=
  if '.' ∈ declared.toList then
    ∃ schema ∈ ref.schema, i.lower declared = i.lower (schema.value ++ "." ++ ref.table.value)
  else i.lower declared = i.lower ref.table.value

def Sound (s : Statement) : Prop :=
  ∀ (σ : SetOrder String) (parser : SqlParser) (contract : ModelDbRepositoryContract),
    ∀ op ∈ contract.ops, op.2.sql = String.ofList (text s.lexemes) →
      (validateDbTableAccess i σ parser contract).isValid = true →
        ∀ ref ∈ s.references, ∃ declared ∈ contract.tables, Allows i declared ref

def Stands (name : String) (ref : TableRef) : Prop :=
  ∀ declared, Admits i declared name → Allows i declared ref

/-- The table cannot slip through: a recursive CTE is seen in the rewritten statement, or no other
CTE and no subquery is, and a name is read that stands for the table. -/
def Checked (sql : String) (ref : TableRef) : Prop :=
  ((recursiveCtePattern i).search (stripSqlStrings sql)).isSome = true ∨
    detectComplexity i (stripSqlStrings sql) = none ∧
      ∃ name, ReadName i (stripSingleQuotedStrings sql).toList sql.toList name ∧ Stands i name ref

/-- A statement without CTEs and subqueries. -/
structure Simple (ls : List Lexeme) : Prop where
  recursive : ((recursiveCtePattern i).search (String.ofList (bare (squeeze .lead ls)))).isSome
    = false
  complexity : detectComplexity i (String.ofList (bare (squeeze .lead ls))) = none

end

/-! ## Contracts with one operation -/

section
variable {i : TextInterpreter} {s : Statement} {ref : TableRef}

theorem exists_not_allows (ref : TableRef) : ∃ declared, ¬ Allows i declared ref := by
  by_contra hall
  have hall : ∀ declared, Allows i declared ref := not_exists_not.mp hall
  have hone := hall "."
  have htwo := hall ".."
  unfold Allows at hone htwo
  rw [if_pos (by decide)] at hone htwo
  obtain ⟨schema, hschema, hone⟩ := hone
  obtain ⟨schema', hschema', htwo⟩ := htwo
  rw [Option.mem_unique hschema' hschema, ← hone, i.lower_ascii _ (by decide),
    i.lower_ascii _ (by decide)] at htwo
  exact absurd htwo (by decide)

theorem length_sql_pos (href : ref ∈ s.references) :
    1 ≤ (String.ofList (text s.lexemes)).length := by
  obtain ⟨c, hc, -⟩ := List.mem_flatMap.mp href
  have hkeyword : c.keyword ≠ [] := by
    intro hnil
    have hmem := c.keyword_mem
    rw [hnil] at hmem
    exact absurd hmem (by decide)
  rw [String.length_ofList, Nat.one_le_iff_ne_zero, ne_eq, List.length_eq_zero_iff]
  intro hnil
  obtain ⟨d, hd⟩ := List.exists_mem_of_ne_nil _ hkeyword
  apply List.not_mem_nil (a := d)
  rw [← hnil]
  unfold Sql.text
  refine List.mem_flatMap.mpr ⟨.char d, ?_, List.mem_singleton_self d⟩
  unfold Statement.lexemes
  refine List.mem_append_left _ (List.mem_flatMap.mpr ⟨c, hc, ?_⟩)
  unfold Clause.lexemes
  simp [hd]

def singleOperation (table : String) (tables : List String) (op : ModelDbOperation) :
    ModelDbRepositoryContract where
  tables := table :: tables
  ops := [("op", op)]
  tables_length := by simp
  ops_length := by simp
  ops_nodup := by simp

theorem Sound.exists_allows {parser : SqlParser} {names : Finset String} (hsound : Sound i s)
    (table : String) (tables : List String) (href : ref ∈ s.references)
    (hextract : extractAllTables i parser (String.ofList (text s.lexemes)) "op" = (names, []))
    (hadmitted : ∀ name ∈ names, ∃ t ∈ table :: tables, Admits i t name) :
    ∃ declared ∈ table :: tables, Allows i declared ref := by
  obtain ⟨op, hsql⟩ : ∃ op : ModelDbOperation, op.sql = String.ofList (text s.lexemes) :=
    ⟨{ mode := .read, sql := _, sql_length := length_sql_pos href }, rfl⟩
  have hop : ("op", op) ∈ (singleOperation table tables op).ops := List.mem_singleton_self _
  refine hsound (SetOrder.ascending String) parser (singleOperation table tables op) _ hop hsql ?_
    ref href
  rw [validateDbTableAccess_isValid_iff]
  intro op' hop'
  rw [show op' = ("op", op) from List.mem_singleton.mp hop', operationErrors_eq_nil_iff, hsql,
    hextract]
  exact ⟨rfl, hadmitted⟩

/-! ## Soundness -/

theorem allowed_of_checked {parser : SqlParser} {tables : List String} {sql opName : String}
    (hchecked : Checked i (normalizeSql sql) ref)
    (hextracted : (extractAllTables i parser sql opName).2 = [])
    (hadmitted : ∀ name ∈ (extractAllTables i parser sql opName).1, ∃ t ∈ tables, Admits i t name) :
    ∃ declared ∈ tables, Allows i declared ref := by
  rcases Bool.eq_false_or_eq_true
    ((recursiveCtePattern i).search (stripSqlStrings (normalizeSql sql))).isSome with hrec | hrec
  · exact absurd hextracted (extractAllTables_recursive hrec)
  · rcases hchecked with hrec' | ⟨hsimple, name, hname, hstands⟩
    · rw [hrec] at hrec'
      exact nomatch hrec'
    · rw [extractAllTables_simple hrec hsimple] at hadmitted
      obtain ⟨t, ht, hadmits⟩ := hadmitted name (mem_extractTablesRegex.mpr hname)
      exact ⟨t, ht, hstands t hadmits⟩

/-- In a sound statement every table is checked: otherwise there is a contract that lets every name
that is read pass, and does not allow the table. -/
theorem Sound.checked (hsound : Sound i s) (href : ref ∈ s.references) :
    Checked i (normalizeSql (String.ofList (text s.lexemes))) ref := by
  obtain ⟨bad, hbad⟩ := exists_not_allows (i := i) ref
  by_contra hchecked
  unfold Checked at hchecked
  rw [not_or, Bool.not_eq_true, not_and] at hchecked
  obtain ⟨hrec, hsimple⟩ := hchecked
  cases hcomplex : detectComplexity i
      (stripSqlStrings (normalizeSql (String.ofList (text s.lexemes)))) with
  | some complexity =>
    -- the parser finds no table at all
    let result : ParserResult := { tables := ∅, cteNames := ∅, success := true }
    have hextract : extractAllTables i
        { hasParser := true, extractTablesWithParser := fun _ => some result }
        (String.ofList (text s.lexemes)) "op" = (result.tables \ result.cteNames, []) :=
      extractAllTables_complex hrec hcomplex rfl rfl rfl
    obtain ⟨declared, hdeclared, hallows⟩ := hsound.exists_allows bad [] href hextract
      fun name hname => by simp [result] at hname
    rw [List.mem_singleton.mp hdeclared] at hallows
    exact hbad hallows
  | none =>
    have hextract : extractAllTables i
        { hasParser := false, extractTablesWithParser := fun _ => none }
        (String.ofList (text s.lexemes)) "op"
          = (extractTablesRegex i (normalizeSql (String.ofList (text s.lexemes))), []) :=
      extractAllTables_simple hrec hcomplex
    have hstray : ∀ name, ReadName i
        (stripSingleQuotedStrings (normalizeSql (String.ofList (text s.lexemes)))).toList
        (normalizeSql (String.ofList (text s.lexemes))).toList name →
          ∃ declared, Admits i declared name ∧ ¬ Allows i declared ref := by
      intro name hname
      by_contra hstands
      apply hsimple hcomplex
      refine ⟨name, hname, fun declared hadmits => ?_⟩
      by_contra hallows
      exact hstands ⟨declared, hadmits, hallows⟩
    choose! stray hstray using hstray
    obtain ⟨declared, hdeclared, hallows⟩ := hsound.exists_allows bad
      ((extractTablesRegex i (normalizeSql
        (String.ofList (text s.lexemes)))).toList.map stray) href hextract fun name hname => by
        refine ⟨stray name, List.mem_cons_of_mem _ (List.mem_map_of_mem
          (Finset.mem_toList.mpr hname)), ?_⟩
        exact (hstray name (mem_extractTablesRegex.mp hname)).1
    rcases List.mem_cons.mp hdeclared with rfl | hdeclared
    · exact hbad hallows
    · obtain ⟨name, hname, rfl⟩ := List.mem_map.mp hdeclared
      rw [Finset.mem_toList] at hname
      exact (hstray name (mem_extractTablesRegex.mp hname)).2 hallows

theorem sound_iff_checked :
    Sound i s ↔
      ∀ ref ∈ s.references, Checked i (normalizeSql (String.ofList (text s.lexemes))) ref := by
  refine ⟨fun hsound ref href => hsound.checked href, ?_⟩
  intro hchecked σ parser contract op hop hsql hvalid ref href
  rw [validateDbTableAccess_isValid_iff] at hvalid
  have herrors := hvalid op hop
  rw [operationErrors_eq_nil_iff, hsql] at herrors
  exact allowed_of_checked (hchecked ref href) herrors.1 herrors.2

theorem checked_iff_of_plain {ls : List Lexeme} (hlexed : Lexed ls) (hplain : Plain ls)
    (hsimple : Simple i ls) :
    Checked i (normalizeSql (String.ofList (text ls))) ref ↔
      ∃ name, ReadName i (text (cutLiterals (squeeze .lead ls))) (text (squeeze .lead ls)) name ∧
        Stands i name ref := by
  unfold Checked
  rw [stripSqlStrings_normalizeSql hlexed hplain, hsimple.recursive,
    or_iff_right Bool.false_ne_true, and_iff_right hsimple.complexity,
    normalizeSql_text hlexed hplain]
  unfold stripSingleQuotedStrings
  rw [eraseSingle_squeeze hplain, String.toList_ofList, String.toList_ofList]

/-! ## Names that stand for tables -/

theorem stands_iff (hdot : ∀ s, '.' ∈ (i.lower s).toList ↔ '.' ∈ s.toList) {name : String}
    (hname : '.' ∉ name.toList) :
    Stands i name ref ↔ i.lower name = i.lower ref.table.value := by
  unfold Stands Admits Allows
  constructor
  · intro h
    have hself := h name
    rw [if_neg fun h => hname h.1, if_neg hname] at hself
    exact hself rfl
  · intro h declared hadmits
    rw [if_neg fun h => hname h.1] at hadmits
    rw [if_neg, ← hadmits, h]
    rwa [← hdot, ← hadmits, hdot]

theorem dot_mem_lower_asciiText (s : String) :
    '.' ∈ (asciiText.lower s).toList ↔ '.' ∈ s.toList := by
  have hlower : ∀ c : Char, c.toLower = '.' ↔ c = '.' := by
    intro c
    unfold Char.toLower
    split_ifs with hc
    · -- a capital letter does not become a dot
      rw [ge_iff_le, UInt32.le_iff_toNat_le, UInt32.le_iff_toNat_le] at hc
      have hupper : 'A'.val.toNat = 65 ∧ 'Z'.val.toNat = 90 := ⟨rfl, rfl⟩
      have hdot : '.'.val.toNat = 46 := rfl
      rw [Char.ext_iff, Char.ext_iff, UInt32.ext_iff, UInt32.ext_iff, UInt32.toNat_add,
        show ('a'.val - 'A'.val).toNat = 32 from rfl]
      omega
    · exact Iff.rfl
  show '.' ∈ (String.ofList (s.toList.map Char.toLower)).toList ↔ _
  rw [String.toList_ofList, List.mem_map]
  simp only [hlower, exists_eq_right]

/-- A plain statement is validated soundly just if all of its tables are read, and admitted only
where they are declared, in the text that the statement itself says. Any other is if they are in
the text that is left when literals, comments and whitespace have been dealt with. -/
theorem validateDbTableAccess_sound_iff (i : TextInterpreter) (s : Statement) :
    (Lexed s.lexemes → Plain s.lexemes → Simple i s.lexemes →
      (Sound i s ↔ ∀ ref ∈ s.references, ∃ name,
        ReadName i (text (cutLiterals (squeeze .lead s.lexemes))) (text (squeeze .lead s.lexemes))
            name ∧
          Stands i name ref)) ∧
    (Sound i s ↔
      ∀ ref ∈ s.references, Checked i (normalizeSql (String.ofList (text s.lexemes))) ref) := by
  refine ⟨fun hlexed hplain hsimple => ?_, sound_iff_checked⟩
  rw [sound_iff_checked]
  exact forall₂_congr fun ref _ => checked_iff_of_plain hlexed hplain hsimple

end

/-! ## Statements -/

/-- `SELECT id FROM users, secrets` -/
def commaList : Statement where
  clauses :=
    [{ before := "SELECT id ".toList.map .char
       keyword := "FROM".toList
       first := { gap := [.char ' '], ref := { table := .unquoted "users".toList }
                  gap_blank := by decide }
       others := [{ gap := [.char ' '], ref := { table := .unquoted "secrets".toList }
                    gap_blank := by decide }]
       keyword_mem := by decide }]

theorem commaList_unsound :
    Lexed commaList.lexemes ∧ Simple asciiText commaList.lexemes ∧ ¬ Sound asciiText commaList := by
  refine ⟨by decide +kernel, ⟨by decide +kernel, by decide +kernel⟩, fun hsound => ?_⟩
  have hextract : extractAllTables asciiText
      { hasParser := false, extractTablesWithParser := fun _ => none }
      (String.ofList (text commaList.lexemes)) "op" = ({"users"}, []) := by decide +kernel
  have href : { table := .unquoted "secrets".toList } ∈ commaList.references := by decide +kernel
  obtain ⟨declared, hdeclared, hallows⟩ := hsound.exists_allows "users" [] href hextract (by
    intro name hname
    rw [Finset.mem_singleton.mp hname]
    exact ⟨"users", List.mem_singleton_self _, rfl⟩)
  rw [List.mem_singleton.mp hdeclared] at hallows
  exact absurd hallows (by unfold Allows; decide +kernel)

/-- `SELECT o.id FROM users u -- all of them`, and on the next line `JOIN "Orders" o` -/
def joined : Statement where
  clauses :=
    [{ before := "SELECT o.id ".toList.map .char
       keyword := "FROM".toList
       first := { gap := [.char ' '], ref := { table := .unquoted "users".toList }
                  rest := " u ".toList.map .char ++ [.lineComment " all of them".toList, .char '\n']
                  gap_blank := by decide }
       keyword_mem := by decide },
     { before := []
       keyword := "JOIN".toList
       first := { gap := [.char ' '], ref := { table := .quoted "Orders".toList }
                  rest := " o".toList.map .char
                  gap_blank := by decide }
       keyword_mem := by decide }]

theorem joined_sound : Sound asciiText joined := by
  have hplain : Plain joined.lexemes :=
    ⟨by decide +kernel, by decide +kernel, by decide +kernel, by decide +kernel⟩
  apply ((validateDbTableAccess_sound_iff asciiText joined).1 (by decide +kernel) hplain
    ⟨by decide +kernel, by decide +kernel⟩).mpr
  intro ref href
  have hreferences : joined.references =
    [{ table := .unquoted "users".toList }, { table := .quoted "Orders".toList }] := rfl
  rw [hreferences, List.mem_cons, List.mem_singleton] at href
  rcases href with rfl | rfl
  · have hkws : ["FROM"] ∈ tableKeywords := by decide
    refine ⟨_, .unquoted (w := "users".toList) hkws (by decide +kernel), ?_⟩
    rw [stands_iff dot_mem_lower_asciiText (by decide +kernel)]
    decide +kernel
  · have hkws : ["JOIN"] ∈ tableKeywords := by decide
    refine ⟨_, .quoted (w := "\"Orders\"".toList) hkws (by decide +kernel), ?_⟩
    rw [stands_iff dot_mem_lower_asciiText (by decide +kernel)]
    decide +kernel

end OmnibaseCore.Database
