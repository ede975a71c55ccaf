import OmnibaseCore.Python.Basic
import OmnibaseCore.Python.Text

/-!
# Values

The objects a context can hold, and what the modelled code asks of them. Conversions that go
through the methods of an object or through the number formats of the interpreter (`str`,
`float`, `re.match`) are an argument, `Interpreter`: nothing that is proved depends on what
they return or raise.
-/

namespace OmnibaseCore

/-- A `float`, up to the sign of zero. -/
inductive PyFloat
  | nan
  | negInf
  | finite (q : ℚ)
  | inf
deriving DecidableEq

/-- `x < y`. -/
def PyFloat.lt : PyFloat → PyFloat → Bool
  | .finite p, .finite q => p < q
  | .negInf, .finite _ | .negInf, .inf | .finite _, .inf => true
  | _, _ => false

/-- `x <= y`. -/
def PyFloat.le : PyFloat → PyFloat → Bool
  | .nan, _ | _, .nan => false
  | x, y => x = y || x.lt y

/-- An object. A `datetime` is its instant in microseconds, a naive one read as UTC. -/
inductive Value
  | none
  | bool (b : Bool)
  | int (n : ℤ)
  | float (x : PyFloat)
  | str (s : String)
  | list (items : List Value)
  | dict (entries : List (Value × Value))
  | datetime (instant : ℤ)
  | uuid (u : UUID)
  | obj (cls : String) (address : ℕ)

structure Interpreter where
  /-- `str(v)` -/
  str : Value → Except PyException String
  /-- `repr` of a list of strings -/
  reprStrs : List String → String
  /-- `float(v)` -/
  float : Value → Except PyException PyFloat
  /-- `bool` of an object of a class of its own -/
  truthyObj : String → ℕ → Except PyException Bool
  /-- `len` of an object of a class of its own, if it has one -/
  lenObj : String → ℕ → Option ℕ
  /-- `bool(re.match(pattern, text))` -/
  reMatch : String → String → Except PyException Bool
  /-- `str` of the `ValidationError` of a model, given the fields at fault -/
  validationText : String → List String → String
  /-- `copy.deepcopy` of an object of a class of its own -/
  deepcopyObj : String → ℕ → Except PyException ℕ
  /-- `datetime.fromisoformat(s)`, if `s` is a date -/
  fromIsoFormat : String → Option ℤ
  /-- `isoformat()` of an instant -/
  isoformat : ℤ → String
  /-- A number of microseconds as seconds with three decimals -/
  formatSeconds : ℤ → String

/-- `bool(v)`. -/
def Interpreter.truthy (i : Interpreter) : Value → Except PyException Bool
  | .none => .ok false
  | .bool b => .ok b
  | .int n => .ok (n ≠ 0)
  | .float x => .ok (x ≠ .finite 0)
  | .str s => .ok (s ≠ "")
  | .list items => .ok (!items.isEmpty)
  | .dict entries => .ok (!entries.isEmpty)
  | .datetime _ => .ok true
  | .uuid _ => .ok true
  | .obj cls address => i.truthyObj cls address

/-- `len(v)` of a sized object. -/
def Interpreter.len (i : Interpreter) : Value → Option ℕ
  | .str s => some s.length
  | .list items => some items.length
  | .dict entries => some entries.length
  | .obj cls address => i.lenObj cls address
  | _ => none

mutual

/-- `copy.deepcopy(v)`. -/
def Interpreter.deepcopy (i : Interpreter) : Value → Except PyException Value
  | .list items => do
    let items ← i.deepcopyItems items
    return .list items
  | .dict entries => do
    let entries ← i.deepcopyEntries entries
    return .dict entries
  | .obj cls address => do
    let address ← i.deepcopyObj cls address
    return .obj cls address
  | v => .ok v

def Interpreter.deepcopyItems (i : Interpreter) : List Value → Except PyException (List Value)
  | [] => .ok []
  | v :: rest => do
    let v ← i.deepcopy v
    let rest ← i.deepcopyItems rest
    return v :: rest

def Interpreter.deepcopyEntries (i : Interpreter) :
    List (Value × Value) → Except PyException (List (Value × Value))
  | [] => .ok []
  | (k, v) :: rest => do
    let k ← i.deepcopy k
    let v ← i.deepcopy v
    let rest ← i.deepcopyEntries rest
    return (k, v) :: rest

end

/-- `d.get(key)` for a text key. -/
def dictGet (entries : List (Value × Value)) (key : String) : Value :=
  match entries.find? fun e => match e.1 with | .str k => k = key | _ => false with
  | some e => e.2
  | none => .none

/-- `dict[str, Any]`, a dictionary whose keys are text. -/
abbrev Context := List (String × Value)

def Context.keys (context : Context) : List String := context.map Prod.fst

/-- `context.get(key)`. -/
def Context.get (context : Context) (key : String) : Value := (context.lookup key).getD .none

theorem Context.get_of_notMem_keys {context : Context} {key : String}
    (h : key ∉ context.keys) : context.get key = .none := by
  have hlookup : context.lookup key = none := by
    rw [List.lookup_eq_none_iff]
    intro e he
    simpa using fun heq : key = e.1 => h (heq ▸ List.mem_map_of_mem he)
  rw [Context.get, hlookup, Option.getD_none]

/-- `context[key] = value`. A key that is there keeps its place. -/
def Context.set (context : Context) (key : String) (value : Value) : Context :=
  if key ∈ context.keys then context.map fun e => if e.1 = key then (key, value) else e
  else context ++ [(key, value)]

/-- `copy.deepcopy(context)`. -/
def Context.deepcopy (i : Interpreter) : Context → Except PyException Context
  | [] => .ok []
  | (key, value) :: rest => do
    let value ← i.deepcopy value
    let rest ← Context.deepcopy i rest
    return (key, value) :: rest

/-- The dictionary as an object. -/
def Context.toValue (context : Context) : Value :=
  .dict (context.map fun e => (.str e.1, e.2))

def readDigits (ds : List Char) : Option ℕ :=
  if ds ≠ [] ∧ ds.all Char.isDigit then
    some (ds.foldl (fun n d => 10 * n + (d.toNat - '0'.toNat)) 0)
  else none

/-- `int(s)` for a decimal numeral. -/
def readInt (s : String) : Option ℤ :=
  match s.toList with
  | '-' :: ds => (readDigits ds).map fun n => -(n : ℤ)
  | '+' :: ds => (readDigits ds).map fun n => (n : ℤ)
  | ds => (readDigits ds).map fun n => (n : ℤ)

/-- Conversions of short numerals and scalars, for examples: no number is rounded, and only
what a guard can compare is printed. -/
def plainInterpreter : Interpreter where
  str
    | .none => .ok "None"
    | .bool b => .ok (if b then "True" else "False")
    | .int n => .ok (toString n)
    | .str s => .ok s
    | _ => .error (.other "NotImplementedError" "")
  reprStrs l := "[" ++ ", ".intercalate (l.map fun s => "'" ++ s ++ "'") ++ "]"
  float
    | .bool b => .ok (.finite (if b then 1 else 0))
    | .int n =>
      if n.natAbs < 2 ^ 1024 then .ok (.finite n)
      else .error (.overflowError "int too large to convert to float")
    | .float x => .ok x
    | .str s =>
      match readInt s with
      | some n => .ok (.finite n)
      | none => .error (.valueError ("could not convert string to float: '" ++ s ++ "'"))
    | _ => .error (.typeError "float() argument must be a string or a real number")
  truthyObj _ _ := .ok true
  lenObj _ _ := none
  reMatch pattern text := .ok (pattern.toList <+: text.toList)
  validationText model fields :=
    toString fields.length ++ " validation error for " ++ model ++ "\n" ++ "\n".intercalate fields
  deepcopyObj _ address := .ok address
  fromIsoFormat _ := none
  isoformat instant := toString instant
  formatSeconds us := toString (us / 1000000) ++ "." ++ toString (us % 1000000 / 1000)

end OmnibaseCore
