import OmnibaseCore.Python.Sorted
import OmnibaseCore.SemVer.Model

/-!
# Similarity of agent outputs

The values that agents produce and `compute_similarity` of the geometric conflict classifier.
Floats are rational numbers and the arithmetic is exact. The counter `_depth` of the source is
the number of levels that are left, `50 - _depth`.
-/

namespace OmnibaseCore.Geometric

/-! ## Values -/

/-- A value that an agent produces: the types that the classifier tells apart, and objects of
other classes. A dictionary has text keys. -/
inductive AgentValue
  | none
  | bool (b : Bool)
  | int (n : ℤ)
  | float (q : ℚ)
  | str (s : String)
  | list (items : List AgentValue)
  | dict (entries : List (String × AgentValue))
  | obj (cls : String) (address : ℕ)

/-- The items of a dictionary. -/
abbrev Entries := List (String × AgentValue)

def Entries.keys (entries : Entries) : List String := entries.map Prod.fst

/-- `entries.get(key)`. -/
def Entries.get (entries : Entries) (key : String) : AgentValue :=
  (entries.lookup key).getD .none

/-- `sorted(set(a.keys()) & set(b.keys()))`. -/
def commonKeys (a b : Entries) : List String :=
  sortedAsc id (a.keys.filter (· ∈ b.keys))

/-- `set(a.keys()) | set(b.keys())`, in the order of the two dictionaries. -/
def allKeys (a b : Entries) : List String :=
  a.keys ++ b.keys.filter (· ∉ a.keys)

structure ClassifierInterpreter where
  text : TextInterpreter
  /-- `a == b` where one of the two is an object of another class -/
  eqObj : AgentValue → AgentValue → Bool
  /-- `repr` of a float -/
  reprFloat : ℚ → String
  /-- `str` of an object of another class -/
  strObj : String → ℕ → String
  /-- `repr` of a list of strings -/
  reprStrs : List String → String
  /-- `f"{x:.3f}"` -/
  threeDecimals : ℚ → String

/-- The number that a value is, for `==`. -/
def AgentValue.number : AgentValue → Option ℚ
  | .bool b => some (if b then 1 else 0)
  | .int n => some n
  | .float q => some q
  | _ => Option.none

mutual

/-- `a == b`. -/
def AgentValue.eq (i : ClassifierInterpreter) : AgentValue → AgentValue → Bool
  | .none, .none => true
  | .str s, .str t => s = t
  | .list l, .list m => eqItems i l m
  | .dict a, .dict b => a.length = b.length && eqEntries i a b
  | .obj cls address, .obj cls' address' =>
    (cls = cls' && address = address') || i.eqObj (.obj cls address) (.obj cls' address')
  | .obj cls address, b => i.eqObj (.obj cls address) b
  | a, .obj cls address => i.eqObj a (.obj cls address)
  | a, b =>
    match a.number, b.number with
    | some p, some q => p = q
    | _, _ => false

def eqItems (i : ClassifierInterpreter) : List AgentValue → List AgentValue → Bool
  | [], [] => true
  | a :: l, b :: m => a.eq i b && eqItems i l m
  | _, _ => false

/-- Every item of the first dictionary is in the second. -/
def eqEntries (i : ClassifierInterpreter) : Entries → Entries → Bool
  | [], _ => true
  | (key, a) :: rest, b =>
    (match b.lookup key with
      | some v => a.eq i v
      | none => false) && eqEntries i rest b

end

/-! ## Text of values -/

def bracketed (texts : List String) : String := "[" ++ ", ".intercalate texts ++ "]"

/-- The texts of the items of a dictionary, in the order of the keys. -/
def braced (texts : List (String × String)) : String :=
  "\x7b" ++ ", ".intercalate ((sortedAsc Prod.fst texts).map fun e =>
    jsonString e.1 ++ ": " ++ e.2) ++ "\x7d"

mutual

/-- `json.dumps(value, sort_keys=True, default=str)`. -/
def AgentValue.json (i : ClassifierInterpreter) : AgentValue → Except PyException String
  | .none => .ok "null"
  | .bool b => .ok (if b then "true" else "false")
  | .int n => SemVer.intStr n
  | .float q => .ok (i.reprFloat q)
  | .str s => .ok (jsonString s)
  | .list items => do
    let texts ← jsonItems i items
    return bracketed texts
  | .dict entries => do
    let texts ← jsonEntries i entries
    return braced texts
  | .obj cls address => .ok (jsonString (i.strObj cls address))

def jsonItems (i : ClassifierInterpreter) : List AgentValue → Except PyException (List String)
  | [] => .ok []
  | v :: rest => do
    let text ← v.json i
    let rest ← jsonItems i rest
    return text :: rest

def jsonEntries (i : ClassifierInterpreter) :
    Entries → Except PyException (List (String × String))
  | [] => .ok []
  | (key, v) :: rest => do
    let text ← v.json i
    let rest ← jsonEntries i rest
    return (key, text) :: rest

end

/-! ## Similarity -/

def maxRecursionDepth : ℕ := 50

def normalize : ℕ → AgentValue → AgentValue
  | 0, v => v
  | depthLeft + 1, .dict entries =>
    .dict ((sortedAsc Prod.fst entries).map fun e => (e.1, normalize depthLeft e.2))
  | depthLeft + 1, .list items => .list (items.map (normalize depthLeft))
  | _ + 1, v => v

/-- `sum(l) / len(l)`. -/
def mean (l : List ℚ) : ℚ := l.sum / l.length

/-- `s[i : i + 2]` for `i` in `range(len(s) - 1)`. -/
def bigrams (s : String) : List (Char × Char) := s.toList.zip s.toList.tail

/-- The elements that two multisets have in common, `sum(min(a[k], b.get(k, 0)) for k in a)`. -/
def intersectionSize {α : Type} [DecidableEq α] (a b : List α) : ℕ :=
  (a.dedup.map fun k => min (a.count k) (b.count k)).sum

def stringSimilarity (a b : String) : ℚ :=
  if a = b then 1
  else if a = "" ∨ b = "" then 0
  else
    let bigramsA := bigrams a
    let bigramsB := bigrams b
    if bigramsA = [] ∧ bigramsB = [] then 0
    else 2 * intersectionSize bigramsA bigramsB / (bigramsA.length + bigramsB.length)

def listSimilarity (i : ClassifierInterpreter) (depthLeft : ℕ) (a b : List AgentValue) :
    Except PyException ℚ :=
  if a = [] ∧ b = [] then .ok 1
  else if a = [] ∨ b = [] then .ok 0
  else do
    let textsA ← a.mapM fun v => (normalize depthLeft v).json i
    let textsB ← b.mapM fun v => (normalize depthLeft v).json i
    let keys := (textsA ++ textsB).dedup
    let intersection := (keys.map fun k => min (textsA.count k) (textsB.count k)).sum
    let union := (keys.map fun k => max (textsA.count k) (textsB.count k)).sum
    return if union = 0 then 1 else intersection / union

/-- `_dict_similarity` above the maximal depth. The first argument compares the values. -/
def dictSimilarity (computeSimilarity : AgentValue → AgentValue → Except PyException ℚ)
    (a b : Entries) : Except PyException ℚ :=
  let all := allKeys a b
  if all = [] then .ok 1
  else do
    let common := commonKeys a b
    let keySimilarity : ℚ := common.length / all.length
    let valueSimilarity ←
      if common = [] then pure 0
      else do
        let valueSims ← common.mapM fun k => computeSimilarity (a.get k) (b.get k)
        pure (mean valueSims)
    return if keySimilarity = 1 then valueSimilarity
      else 1 / 2 * keySimilarity + 1 / 2 * valueSimilarity

def numberSimilarity (p q : ℚ) : ℚ := 1 - min (|p - q| / max (max |p| |q|) 1) 1

/-- The body of `compute_similarity`, given how it compares dictionaries. -/
def similarityOf (i : ClassifierInterpreter) (depthLeft : ℕ)
    (dicts : Entries → Entries → Except PyException ℚ) (valueA valueB : AgentValue) :
    Except PyException ℚ :=
  let normA := normalize depthLeft valueA
  let normB := normalize depthLeft valueB
  if normA.eq i normB then .ok 1
  else
    match normA, normB with
    | .dict a, .dict b => dicts a b
    | .int n, .int m => .ok (numberSimilarity n m)
    | .int n, .float q => .ok (numberSimilarity n q)
    | .float q, .int n => .ok (numberSimilarity q n)
    | .float p, .float q => .ok (numberSimilarity p q)
    | .str s, .str t => .ok (stringSimilarity s t)
    | .list l, .list m => listSimilarity i depthLeft l m
    | _, _ => .ok 0

def computeSimilarity (i : ClassifierInterpreter) :
    ℕ → AgentValue → AgentValue → Except PyException ℚ
  | 0 => similarityOf i 0 fun a b => .ok (if (AgentValue.dict a).eq i (.dict b) then 1 else 0)
  | depthLeft + 1 => similarityOf i (depthLeft + 1) (dictSimilarity (computeSimilarity i depthLeft))

end OmnibaseCore.Geometric
