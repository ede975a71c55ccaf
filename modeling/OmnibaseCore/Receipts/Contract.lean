import OmnibaseCore.Json.Text

/-!
# Ticket contracts

What the receipt gates read of a ticket contract, as `yaml.safe_load` returns it: the items and
checks of its `dod_evidence`, and the hash that binds a receipt to one item.
-/

namespace OmnibaseCore.Receipts

structure GateInterpreter extends TextInterpreter where
  /-- `s.upper()` -/
  upper : String → String
  /-- `repr` of a finite `float` -/
  floatRepr : ℚ → String
  /-- `hashlib.sha256(s.encode()).hexdigest()` -/
  sha256 : String → String

/-! ## Mappings -/

abbrev Mapping := List (Value × Value)

/-- The object is the text `s`. -/
def isText (s : String) : Value → Bool
  | .str s' => s' = s
  | _ => false

/-- `d.get(key)`. -/
def Mapping.get (d : Mapping) (key : String) : Option Value :=
  (d.find? fun e => isText key e.1).map Prod.snd

def asMapping : Value → Option Mapping
  | .dict entries => some entries
  | _ => none

def asText : Value → Option String
  | .str s => some s
  | _ => none

/-! ## `json.dumps` -/

/-- A character of a text, with `ensure_ascii=False`. -/
def escapeUnicode (c : Char) : List Char :=
  if c = '"' then ['\\', '"']
  else if c = '\\' then ['\\', '\\']
  else if c.toNat = 0x08 then ['\\', 'b']
  else if c.toNat = 0x09 then ['\\', 't']
  else if c.toNat = 0x0a then ['\\', 'n']
  else if c.toNat = 0x0c then ['\\', 'f']
  else if c.toNat = 0x0d then ['\\', 'r']
  else if c.toNat < 0x20 then '\\' :: 'u' :: hexDigits 4 c.toNat
  else [c]

def quoteUnicode (s : String) : String :=
  "\"" ++ String.ofList (s.toList.flatMap escapeUnicode) ++ "\""

/-- A key that is a number, as what `<` compares. -/
def numberOf : Value → Option PyFloat
  | .bool b => some (.finite (if b then 1 else 0))
  | .int n => some (.finite n)
  | .float x => some x
  | _ => none

/-- `sorted(d.items())`. Keys of different kinds cannot be compared, and neither can most others. -/
def sortItems {β : Type} (items : List (Value × β)) : Except PyException (List (Value × β)) :=
  if items.all fun e => (asText e.1).isSome then
    .ok (sortedAsc (fun e => (asText e.1).getD "") items)
  else if items.all fun e => (numberOf e.1).isSome then
    -- a `nan` is neither above nor below another number
    .ok (items.insertionSort fun e e' =>
      PyFloat.lt ((numberOf e'.1).getD .nan) ((numberOf e.1).getD .nan) = false)
  else if items.length ≤ 1 then .ok items
  else .error (.typeError "'<' not supported between instances of the keys")

namespace GateInterpreter

variable (i : GateInterpreter)

def keyText : Value → Except PyException String
  | .str s => .ok s
  | .float x => .ok (floatText i.floatRepr x)
  | .bool b => .ok (if b then "true" else "false")
  | .none => .ok "null"
  | .int n => SemVer.intStr n
  | _ => .error (.typeError "keys must be str, int, float, bool or None")

mutual

/-- `json.dumps(v, sort_keys=True, separators=(",", ":"), ensure_ascii=False)`. -/
def dumps : Value → Except PyException String
  | .none => .ok "null"
  | .bool b => .ok (if b then "true" else "false")
  | .int n => SemVer.intStr n
  | .float x => .ok (floatText i.floatRepr x)
  | .str s => .ok (quoteUnicode s)
  | .list items => do
    let texts ← dumpsItems items
    return "[" ++ ",".intercalate texts ++ "]"
  | .dict entries => do
    let texts ← sortItems (← dumpsEntries entries)
    let texts ← texts.mapM fun e => do
      let key ← i.keyText e.1
      return quoteUnicode key ++ ":" ++ e.2
    return "\x7b" ++ ",".intercalate texts ++ "\x7d"
  | .datetime _ | .uuid _ | .obj _ _ => .error (.typeError "Object is not JSON serializable")

def dumpsItems : List Value → Except PyException (List String)
  | [] => .ok []
  | v :: rest => do
    let text ← dumps v
    let texts ← dumpsItems rest
    return text :: texts

def dumpsEntries : Mapping → Except PyException (List (Value × String))
  | [] => .ok []
  | (key, v) :: rest => do
    let text ← dumps v
    let texts ← dumpsEntries rest
    return (key, text) :: texts

end

end GateInterpreter

/-! ## Contracts -/

/-- The mappings among the items of `dod_evidence`. -/
def dodItems (contract : Value) : List Mapping :=
  match (asMapping contract).bind (·.get "dod_evidence") with
  | some (.list items) => items.filterMap asMapping
  | _ => []

/-- The items that have a text as their `id`. -/
def idItems (contract : Value) : List (String × Mapping) :=
  (dodItems contract).filterMap fun item =>
    ((item.get "id").bind asText).map fun id => (id, item)

def headerFields : List String := ["ticket_id", "schema_version"]

/-- What the hash of an entry raises: `ContractEntryNotFoundError`, or what `json.dumps` raises. -/
inductive EntryHashError
  | contractEntryNotFoundError (message : String)
  | raised (e : PyException)

/-- The header that is folded into the hash of an entry. -/
def headerOf (contract : Value) : Value :=
  .dict (headerFields.map fun key =>
    (.str key, ((asMapping contract).bind (·.get key)).getD .none))

namespace GateInterpreter

variable (i : GateInterpreter)

def entryText (contract : Value) (entry : Mapping) : Except PyException String :=
  i.dumps (.dict [(.str "header", headerOf contract), (.str "entry", .dict entry)])

/-- The first item with this `id`. -/
def findEntry (contractData : Value) (evidenceItemId : String) : Option Mapping :=
  (dodItems contractData).find? fun item =>
    ((item.get "id").map (isText evidenceItemId)).getD false

def computeContractEntrySha256 (contractData : Value) (evidenceItemId : String) :
    Except EntryHashError String :=
  match findEntry contractData evidenceItemId with
  | none =>
    .error (.contractEntryNotFoundError
      ("dod_evidence item " ++ i.repr evidenceItemId ++ " not found in contract"))
  | some entry =>
    match i.entryText contractData entry with
    | .error e => .error (.raised e)
    | .ok blob => .ok ("sha256:" ++ i.sha256 blob)

end GateInterpreter

end OmnibaseCore.Receipts
