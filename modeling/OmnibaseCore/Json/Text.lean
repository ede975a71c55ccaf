import OmnibaseCore.Json.Basic
import OmnibaseCore.Python.Value
import OmnibaseCore.SemVer.Model

/-!
# The text of a value

`json.dumps(value, sort_keys=True)`, compact or indented. The text of a leaf is an argument, as
are the digits of a `float`.
-/

namespace OmnibaseCore

/-! ## Leaves -/

/-- The leaves of `StrictJsonType`. -/
inductive StrictJsonPrimitive
  | bool (b : Bool)
  | int (n : ℤ)
  | float (x : PyFloat)
  | str (s : String)
deriving DecidableEq

/-- The text of a `float`, given the digits of the finite ones. -/
def floatText (floatRepr : ℚ → String) : PyFloat → String
  | .nan => "NaN"
  | .negInf => "-Infinity"
  | .finite q => floatRepr q
  | .inf => "Infinity"

def StrictJsonPrimitive.text (floatRepr : ℚ → String) :
    StrictJsonPrimitive → Except PyException String
  | .bool b => .ok (if b then "true" else "false")
  | .int n => SemVer.intStr n
  | .float x => .ok (floatText floatRepr x)
  | .str s => .ok (jsonString s)

/-! ## Layout -/

/-- What stands between the parts of a text. -/
structure JsonStyle where
  keySeparator : String
  /-- What stands before an item, by the number of brackets around it -/
  newline : ℕ → String

/-- `separators=(",", ":")` -/
def JsonStyle.compact : JsonStyle where
  keySeparator := ":"
  newline _ := ""

/-- `indent=width` -/
def JsonStyle.indent (width : ℕ) : JsonStyle where
  keySeparator := ": "
  newline depth := "\n" ++ String.ofList (List.replicate (width * depth) ' ')

def JsonStyle.bracket (style : JsonStyle) (opening closing : String) (depth : ℕ)
    (items : List String) : String :=
  if items.isEmpty then opening ++ closing
  else opening ++ style.newline (depth + 1)
    ++ ("," ++ style.newline (depth + 1)).intercalate items
    ++ style.newline depth ++ closing

theorem mapM_congr_of_mem {ε β γ : Type} {f g : β → Except ε γ} {l : List β}
    (h : ∀ b ∈ l, f b = g b) : l.mapM f = l.mapM g := by
  induction l with
  | nil => rfl
  | cons b rest ih =>
    rw [List.forall_mem_cons] at h
    rw [List.mapM_cons, List.mapM_cons, h.1, ih h.2]

namespace Json

variable {α : Type} (leaf : α → Except PyException String) (style : JsonStyle)

/-- The text of a value within `depth` brackets. -/
def dumpsAt : Json α → ℕ → Except PyException String :=
  fold (fun _ => .ok "null") (fun a _ => leaf a)
    (fun items depth => do
      let items ← items.mapM fun text => text (depth + 1)
      return style.bracket "[" "]" depth items)
    fun entries depth => do
      let items ← (sortedAsc Prod.fst entries).mapM fun e => do
        let text ← e.2 (depth + 1)
        return jsonString e.1 ++ style.keySeparator ++ text
      return style.bracket "\x7b" "\x7d" depth items

/-- `json.dumps(value, sort_keys=True)`. -/
def dumps (j : Json α) : Except PyException String := dumpsAt leaf style j 0

/-- The text of an entry within `depth` brackets. -/
def entryText (depth : ℕ) (e : String × Json α) : Except PyException String := do
  let text ← dumpsAt leaf style e.2 depth
  return jsonString e.1 ++ style.keySeparator ++ text

theorem dumpsAt_list (items : List (Json α)) (depth : ℕ) :
    dumpsAt leaf style (.list items) depth = do
      let texts ← items.mapM fun j => dumpsAt leaf style j (depth + 1)
      return style.bracket "[" "]" depth texts := by
  unfold dumpsAt
  rw [fold_list, List.mapM_map]
  rfl

theorem dumpsAt_dict (entries : List (String × Json α)) (depth : ℕ) :
    dumpsAt leaf style (.dict entries) depth = do
      let texts ← (sortedAsc Prod.fst entries).mapM (entryText leaf style (depth + 1))
      return style.bracket "\x7b" "\x7d" depth texts := by
  unfold dumpsAt
  rw [fold_dict, sortedAsc_mapValues, List.mapM_map]
  rfl

theorem dumpsAt_sortKeys (j : Json α) (depth : ℕ) :
    dumpsAt leaf style (sortKeys j) depth = dumpsAt leaf style j depth := by
  induction j generalizing depth with
  | null => rfl
  | prim a => rfl
  | list items ih =>
    rw [sortKeys_list, dumpsAt_list, dumpsAt_list, List.mapM_map]
    have hitems : items.mapM (fun j => dumpsAt leaf style (sortKeys j) (depth + 1))
        = items.mapM fun j => dumpsAt leaf style j (depth + 1) :=
      mapM_congr_of_mem fun j hj => ih j hj (depth + 1)
    exact congrArg (· >>= _) hitems
  | dict entries ih =>
    rw [sortKeys_dict, dumpsAt_dict, dumpsAt_dict, sortedAsc_mapValues, sortedAsc_sortedAsc,
      List.mapM_map]
    have hentries : (sortedAsc Prod.fst entries).mapM
          (fun e => entryText leaf style (depth + 1) (e.1, sortKeys e.2))
        = (sortedAsc Prod.fst entries).mapM (entryText leaf style (depth + 1)) := by
      apply mapM_congr_of_mem
      intro e he
      unfold entryText
      rw [ih e ((perm_sortedAsc Prod.fst entries).mem_iff.mp he)]
    exact congrArg (· >>= _) hentries

theorem dumps_sortKeys (j : Json α) : dumps leaf style (sortKeys j) = dumps leaf style j :=
  dumpsAt_sortKeys leaf style j 0

theorem dumps_congr {j j' : Json α} (h : sortKeys j = sortKeys j') :
    dumps leaf style j = dumps leaf style j' := by
  rw [← dumps_sortKeys, h, dumps_sortKeys]

end Json

end OmnibaseCore
