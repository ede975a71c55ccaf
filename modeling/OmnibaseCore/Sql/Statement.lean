import OmnibaseCore.Sql.Lexeme

/-!
# The tables of a statement

A statement as far as its tables go: clauses that begin with a keyword and list tables, and lexemes
of any kind around them. Aliases, conditions, columns and everything else is in the lexemes.
-/

namespace OmnibaseCore.Sql

/-- A lexeme that may stand between a keyword and a name. -/
def Lexeme.isBlank : Lexeme → Bool
  | .char c => isSpace c
  | l => l.isComment

inductive Name
  | unquoted (w : List Char)
  | quoted (body : List Char)
deriving DecidableEq

def Name.lexemes : Name → List Lexeme
  | .unquoted w => w.map Lexeme.char
  | .quoted body => [.quoted body]

def Name.value : Name → String
  | .unquoted w => String.ofList w
  | .quoted body => String.ofList (undouble '"' body)

structure TableRef where
  schema : Option Name := none
  table : Name
deriving DecidableEq

/-- How a reference is written. -/
def TableRef.lexemes (ref : TableRef) : List Lexeme :=
  (ref.schema.elim [] fun schema => schema.lexemes ++ [.char '.']) ++ ref.table.lexemes

/-- A table in a list, and what comes behind it: its alias and, for a join, the condition. -/
structure Member where
  gap : List Lexeme
  ref : TableRef
  rest : List Lexeme := []
  gap_blank : ∀ l ∈ gap, l.isBlank = true

def Member.lexemes (m : Member) : List Lexeme := m.gap ++ m.ref.lexemes ++ m.rest

def clauseKeywords : List String := ["FROM", "JOIN", "INTO", "UPDATE", "USING"]

structure Clause where
  before : List Lexeme
  keyword : List Char
  first : Member
  others : List Member := []
  keyword_mem : String.ofList (keyword.map Char.toUpper) ∈ clauseKeywords

def Clause.lexemes (c : Clause) : List Lexeme :=
  c.before ++ c.keyword.map Lexeme.char ++ c.first.lexemes ++
    c.others.flatMap fun m => .char ',' :: m.lexemes

structure Statement where
  clauses : List Clause
  tail : List Lexeme := []

def Statement.lexemes (s : Statement) : List Lexeme := s.clauses.flatMap Clause.lexemes ++ s.tail

def Statement.references (s : Statement) : List TableRef :=
  s.clauses.flatMap fun c => c.first.ref :: c.others.map Member.ref

end OmnibaseCore.Sql
