import OmnibaseCore.Python.Affix
import OmnibaseCore.Python.Collapse
import OmnibaseCore.Regex.Delimited

/-!
# `normalize_sql` and `strip_sql_strings`

The validators of database contracts look for patterns in a statement that has been rewritten:
literals are taken out, comments are cut, the literals come back, and whitespace is collapsed. The
passes run one after the other over the whole text, the one for single quotes before the one for
double quotes, and both before comments are known.
-/

namespace OmnibaseCore.Database

open Regex

def singleQuoteStringPattern : Regex := delimited '\''

def doubleQuoteStringPattern : Regex := delimited '"'

/-! ## Placeholders -/

/-- `counter` and `replacements`. -/
structure Extraction where
  counter : ℕ := 0
  replacements : List (String × String) := []

def placeholderText (counter : ℕ) : String := "__SQL_STRING_" ++ toString counter ++ "__"

def makePlaceholder (st : Extraction) (m : Match) : String × Extraction :=
  let placeholder := placeholderText st.counter
  (placeholder,
    { counter := st.counter + 1
      replacements := st.replacements ++ [(placeholder, String.ofList m.taken)] })

/-- `pattern.sub(make_placeholder, sql)`, on the pieces of the text. -/
def subPlaceholders : List Piece → Extraction → List Char × Extraction
  | [], st => ([], st)
  | .char c :: ps, st =>
    let result := subPlaceholders ps st
    (c :: result.1, result.2)
  | .found m :: ps, st =>
    let made := makePlaceholder st m
    let result := subPlaceholders ps made.2
    (made.1.toList ++ result.1, result.2)

def extractStringsWithPlaceholders (sql : String) : String × List (String × String) :=
  let single := subPlaceholders (singleQuoteStringPattern.pieces sql) {}
  let double :=
    subPlaceholders (doubleQuoteStringPattern.pieces (String.ofList single.1)) single.2
  (String.ofList double.1, double.2.replacements)

def restoreStrings (sql : String) (replacements : List (String × String)) : String :=
  replacements.foldl (fun sql r => replaceText r.1 r.2 sql) sql

/-! ## Comments -/

/-- `re.sub(r"--.*$", "", sql, flags=re.MULTILINE)`. The flag tells that a comment has begun on the
line. -/
def subLineComments : Bool → List Char → List Char
  | _, [] => []
  | true, c :: rest =>
    if c = '\n' then c :: subLineComments false rest else subLineComments true rest
  | false, c :: rest =>
    if c = '-' ∧ rest.head? = some '-' then subLineComments true rest
    else c :: subLineComments false rest

/-- What stands behind the next `*/`. -/
def behindClose : List Char → Option (List Char)
  | [] => none
  | [_] => none
  | c :: d :: rest => if c = '*' ∧ d = '/' then some rest else behindClose (d :: rest)

/-- `re.sub(r"/\*.*?\*/", "", sql, flags=re.DOTALL)`, for a text of at most `n` characters. -/
def subBlockComments : ℕ → List Char → List Char
  | 0, _ => []
  | _ + 1, [] => []
  | n + 1, c :: rest =>
    match if c = '/' ∧ rest.head? = some '*' then behindClose rest.tail else none with
    | some rest' => subBlockComments n rest'
    | none => c :: subBlockComments n rest

/-! ## The passes -/

def normalizeSql (sql : String) : String :=
  let extracted := extractStringsWithPlaceholders sql
  let sql := subLineComments false extracted.1.toList
  let sql := subBlockComments sql.length sql
  let sql := restoreStrings (String.ofList sql) extracted.2
  strip (joinWords sql)

def stripSqlStrings (sql : String) : String :=
  doubleQuoteStringPattern.erase (singleQuoteStringPattern.erase sql)

example : normalizeSql "SELECT *\n FROM t -- all\n WHERE a = 'x -- /* y'" =
    "SELECT * FROM t WHERE a = 'x -- /* y'" := by decide +kernel

example : stripSqlStrings "SELECT \"a\" FROM t WHERE b = 'DROP'" = "SELECT  FROM t WHERE b = " := by
  decide +kernel

end OmnibaseCore.Database
