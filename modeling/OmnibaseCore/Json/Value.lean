import OmnibaseCore.Json.Text

/-!
# Values of `JsonType`

`JsonType` has identifiers and dates among its leaves, which `json.dumps` does not take. Values
are compared by `==`, for which `True`, `1` and `1.0` are equal.
-/

namespace OmnibaseCore

/-! ## Leaves -/

/-- The leaves of `JsonType`. A date is an instant in microseconds, of a time zone or without
one. -/
inductive JsonPrimitive
  | strict (p : StrictJsonPrimitive)
  | uuid (u : UUID)
  | datetime (aware : Bool) (instant : ℤ)
deriving DecidableEq

/-- `json.dumps` of a leaf. -/
def JsonPrimitive.text (floatRepr : ℚ → String) : JsonPrimitive → Except PyException String
  | .strict p => p.text floatRepr
  | .uuid _ => .error (.typeError "Object of type UUID is not JSON serializable")
  | .datetime _ _ => .error (.typeError "Object of type datetime is not JSON serializable")

/-- A leaf that `json.dumps` takes. -/
def JsonPrimitive.Serializable : JsonPrimitive → Prop
  | .strict (.int n) => (toString n.natAbs).length ≤ SemVer.intMaxStrDigits
  | .strict _ => True
  | _ => False

theorem JsonPrimitive.exists_text {a : JsonPrimitive} (h : a.Serializable) (floatRepr : ℚ → String) :
    ∃ text, a.text floatRepr = .ok text := by
  cases a with
  | strict p =>
    cases p with
    | int n => exact ⟨_, if_neg (not_lt.mpr h)⟩
    | _ => exact ⟨_, rfl⟩
  | uuid u => exact h.elim
  | datetime aware instant => exact h.elim

theorem JsonPrimitive.exists_text_iff {a : JsonPrimitive} {floatRepr : ℚ → String} :
    (∃ text, a.text floatRepr = .ok text) ↔ a.Serializable := by
  refine ⟨fun ⟨text, h⟩ => ?_, fun h => exists_text h floatRepr⟩
  cases a with
  | strict p =>
    cases p with
    | int n =>
      by_contra hlong
      have hraises : JsonPrimitive.text floatRepr (.strict (.int n)) = .error _ :=
        if_pos (not_le.mp hlong)
      rw [hraises] at h
      exact nomatch h
    | _ => trivial
  | uuid u => exact nomatch h
  | datetime aware instant => exact nomatch h

def StrictJsonPrimitive.number : StrictJsonPrimitive → Option PyFloat
  | .bool b => some (.finite (if b then 1 else 0))
  | .int n => some (.finite n)
  | .float x => some x
  | .str _ => none

/-- `a == b` of leaves. -/
def StrictJsonPrimitive.pyEq (a b : StrictJsonPrimitive) : Bool :=
  match a.number, b.number with
  | some x, some y => x = y && x ≠ .nan
  | none, none => a = b
  | _, _ => false

def JsonPrimitive.pyEq : JsonPrimitive → JsonPrimitive → Bool
  | .strict a, .strict b => a.pyEq b
  | .uuid u, .uuid v => u = v
  | .datetime aware t, .datetime aware' t' => aware = aware' && t = t'
  | _, _ => false

/-! ## Trees -/

namespace Json

variable {α : Type}

/-- `a == b`, given `==` of leaves. -/
def pyEq (eq : α → α → Bool) : Json α → Json α → Bool :=
  fold (fun j => j.isNull)
    (fun a j => match j with
      | .prim b => eq a b
      | _ => false)
    (fun items j => match j with
      | .list items' =>
        items.length = items'.length && (List.zipWith (fun f i => f i) items items').all id
      | _ => false)
    fun entries j => match j with
      | .dict entries' =>
        entries.length = entries'.length && entries.all fun e =>
          match entries'.lookup e.1 with
          | none => false
          | some i => e.2 i
      | _ => false

/-- Every leaf of a value has a property. -/
def All (p : α → Prop) : Json α → Prop :=
  fold True p (fun items => ∀ i ∈ items, i) fun entries => ∀ e ∈ entries, e.2

@[simp] theorem all_null (p : α → Prop) : All p .null := trivial

variable {p : α → Prop}

@[simp] theorem all_prim {a : α} : All p (.prim a) ↔ p a := Iff.rfl

@[simp] theorem all_list {items : List (Json α)} : All p (.list items) ↔ ∀ j ∈ items, All p j := by
  unfold All
  rw [fold_list, List.forall_mem_map]

variable {entries : List (String × Json α)}

@[simp] theorem all_dict :
    All p (.dict entries) ↔ ∀ e ∈ entries, All p e.2 := by
  unfold All
  rw [fold_dict, List.forall_mem_map]

theorem exists_mapM_ok {ε β γ : Type} {f : β → Except ε γ} {l : List β}
    (h : ∀ b ∈ l, ∃ c, f b = .ok c) : ∃ l', l.mapM f = .ok l' := by
  induction l with
  | nil => exact ⟨[], rfl⟩
  | cons b rest ih =>
    rw [List.forall_mem_cons] at h
    obtain ⟨c, hc⟩ := h.1
    obtain ⟨cs, hcs⟩ := ih h.2
    exact ⟨c :: cs, by rw [List.mapM_cons, hc, hcs]; rfl⟩

variable {leaf : α → Except PyException String} {style : JsonStyle} {j : Json α}

theorem exists_dumpsAt (h : j.All fun a => ∃ text, leaf a = .ok text) (depth : ℕ) :
    ∃ text, dumpsAt leaf style j depth = .ok text := by
  induction j generalizing depth with
  | null => exact ⟨_, rfl⟩
  | prim a => exact h
  | list items ih =>
    rw [all_list] at h
    obtain ⟨texts, htexts⟩ := exists_mapM_ok fun i hi => ih i hi (h i hi) (depth + 1)
    exact ⟨_, by rw [dumpsAt_list, htexts]; rfl⟩
  | dict entries ih =>
    rw [all_dict] at h
    have hentries : ∀ e ∈ sortedAsc Prod.fst entries,
        ∃ text, entryText leaf style (depth + 1) e = .ok text := by
      intro e he
      have hmem : e ∈ entries := (perm_sortedAsc Prod.fst entries).mem_iff.mp he
      obtain ⟨text, htext⟩ := ih e hmem (h e hmem) (depth + 1)
      exact ⟨_, by unfold entryText; rw [htext]; rfl⟩
    obtain ⟨texts, htexts⟩ := exists_mapM_ok hentries
    exact ⟨_, by rw [dumpsAt_dict, htexts]; rfl⟩

theorem exists_dumps (style : JsonStyle) (h : j.All fun a => ∃ text, leaf a = .ok text) :
    ∃ text, dumps leaf style j = .ok text :=
  exists_dumpsAt h 0

theorem of_mapM_ok {ε β γ : Type} {f : β → Except ε γ} {l : List β} {l' : List γ}
    (h : l.mapM f = .ok l') : ∀ b ∈ l, ∃ c, f b = .ok c := by
  induction l generalizing l' with
  | nil => simp
  | cons b rest ih =>
    rw [List.mapM_cons] at h
    obtain ⟨c, hc, h⟩ := bind_eq_ok h
    obtain ⟨cs, hcs, -⟩ := bind_eq_ok h
    exact List.forall_mem_cons.mpr ⟨⟨c, hc⟩, ih hcs⟩

theorem all_of_dumpsAt {depth : ℕ} {text : String} (h : dumpsAt leaf style j depth = .ok text) :
    j.All fun a => ∃ text, leaf a = .ok text := by
  induction j generalizing depth text with
  | null => trivial
  | prim a => exact ⟨text, h⟩
  | list items ih =>
    rw [dumpsAt_list] at h
    obtain ⟨texts, htexts, -⟩ := bind_eq_ok h
    rw [all_list]
    intro i hi
    obtain ⟨text, htext⟩ := of_mapM_ok htexts i hi
    exact ih i hi htext
  | dict entries ih =>
    rw [dumpsAt_dict] at h
    obtain ⟨texts, htexts, -⟩ := bind_eq_ok h
    rw [all_dict]
    intro e he
    obtain ⟨text, htext⟩ := of_mapM_ok htexts e ((perm_sortedAsc Prod.fst entries).mem_iff.mpr he)
    obtain ⟨value, hvalue, -⟩ := bind_eq_ok htext
    exact ih e he hvalue

/-- A value has a text if and only if its leaves have. -/
theorem exists_dumps_iff :
    (∃ text, dumps leaf style j = .ok text) ↔ j.All fun a => ∃ text, leaf a = .ok text :=
  ⟨fun ⟨_, h⟩ => all_of_dumpsAt h, exists_dumps style⟩

theorem All.imp {p q : α → Prop} (hpq : ∀ a, p a → q a) (h : j.All p) : j.All q := by
  induction j with
  | null => trivial
  | prim a => exact hpq a h
  | list items ih =>
    rw [all_list] at *
    exact fun i hi => ih i hi (h i hi)
  | dict entries ih =>
    rw [all_dict] at *
    exact fun e he => ih e he (h e he)

/-- No dictionary, at any depth, has a key twice. -/
def UniqueKeys : Json α → Prop :=
  fold True (fun _ => True) (fun items => ∀ i ∈ items, i) fun entries =>
    (entries.map Prod.fst).Nodup ∧ ∀ e ∈ entries, e.2

theorem uniqueKeys_dict :
    UniqueKeys (.dict entries) ↔
      (entries.map Prod.fst).Nodup ∧ ∀ e ∈ entries, UniqueKeys e.2 := by
  unfold UniqueKeys
  rw [fold_dict, List.map_map, List.forall_mem_map]
  rfl

example : pyEq StrictJsonPrimitive.pyEq (.dict [("a", .prim (.int 1)), ("b", .null)])
    (.dict [("b", .null), ("a", .prim (.bool true))]) = true := by decide

end Json

end OmnibaseCore
