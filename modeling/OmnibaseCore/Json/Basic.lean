import Mathlib.Data.String.Basic
import OmnibaseCore.Python.Sorted

/-!
# Trees of dictionaries and lists

What `json` reads and writes, with leaves of any type. A dictionary is the list of its entries
in insertion order.

* `Json.fold` visits a value from its leaves up, `Json.foldValues` with the values at hand;
  `Json.ind` is induction over values.
-/

namespace OmnibaseCore

/-- A value of nested dictionaries and lists. -/
inductive Json (α : Type) where
  | null
  | prim (a : α)
  | list (items : List (Json α))
  | dict (entries : List (String × Json α))

/-- `d[key] = value`. A key that is there keeps its place. -/
def dictSet {β : Type} (d : List (String × β)) (key : String) (value : β) : List (String × β) :=
  if key ∈ d.map Prod.fst then d.map fun e => if e.1 = key then (key, value) else e
  else d ++ [(key, value)]

theorem foldl_dictSet_of_nodup {β γ : Type} (f : γ → String) (g : γ → β) {l : List γ}
    (h : (l.map f).Nodup) :
    l.foldl (fun d b => dictSet d (f b) (g b)) [] = l.map fun b => (f b, g b) := by
  induction l using List.reverseRecOn with
  | nil => rfl
  | append_singleton l b ih =>
    rw [List.map_append, List.nodup_append] at h
    have hnew : f b ∉ (l.map fun b => (f b, g b)).map Prod.fst := by
      rw [List.map_map]
      exact fun hmem => h.2.2 _ hmem _ (List.mem_singleton.mpr rfl) rfl
    rw [List.foldl_append, ih h.1, List.map_append]
    simp only [List.foldl_cons, List.foldl_nil, dictSet, if_neg hnew, List.map_cons, List.map_nil]

namespace Json

variable {α β : Type}

/-! ## Recursion and induction -/

section
variable (null : β) (prim : α → β) (list : List β → β) (dict : List (String × β) → β)

mutual

/-- Replaces each constructor by a function. -/
def fold : Json α → β
  | .null => null
  | .prim a => prim a
  | .list items => list (foldItems items)
  | .dict entries => dict (foldEntries entries)

def foldItems : List (Json α) → List β
  | [] => []
  | j :: rest => fold j :: foldItems rest

def foldEntries : List (String × Json α) → List (String × β)
  | [] => []
  | (k, j) :: rest => (k, fold j) :: foldEntries rest

end

theorem foldItems_eq (items : List (Json α)) :
    foldItems null prim list dict items = items.map (fold null prim list dict) := by
  induction items with
  | nil => rfl
  | cons j rest ih => rw [foldItems, ih, List.map_cons]

variable (entries : List (String × Json α))

theorem foldEntries_eq :
    foldEntries null prim list dict entries
      = entries.map fun e => (e.1, fold null prim list dict e.2) := by
  induction entries with
  | nil => rfl
  | cons e rest ih => rw [foldEntries, ih, List.map_cons]

@[simp] theorem fold_null : fold null prim list dict .null = null := rfl

@[simp] theorem fold_prim (a : α) : fold null prim list dict (.prim a) = prim a := rfl

@[simp] theorem fold_list (items : List (Json α)) :
    fold null prim list dict (.list items) = list (items.map (fold null prim list dict)) := by
  rw [fold, foldItems_eq]

@[simp] theorem fold_dict :
    fold null prim list dict (.dict entries)
      = dict (entries.map fun e => (e.1, fold null prim list dict e.2)) := by
  rw [fold, foldEntries_eq]

end

section
variable (null : β) (prim : α → β) (list : List (Json α × β) → β)
  (dict : List (String × Json α × β) → β)

/-- A fold that also sees the values whose results it puts together. -/
def foldValues (j : Json α) : β :=
  (fold (Json.null, null) (fun a => (.prim a, prim a))
    (fun items => (.list (items.map Prod.fst), list items))
    (fun entries => (.dict (entries.map fun e => (e.1, e.2.1)), dict entries)) j).2

end

/-- A property holds of every value once it is inherited from the items of lists and the values
of dictionaries. -/
@[elab_as_elim, induction_eliminator]
theorem ind {P : Json α → Prop} (null : P .null) (prim : ∀ a, P (.prim a))
    (list : ∀ items, (∀ j ∈ items, P j) → P (.list items))
    (dict : ∀ entries, (∀ e ∈ entries, P e.2) → P (.dict entries)) (j : Json α) : P j := by
  refine @Json.rec α P (fun items => ∀ j ∈ items, P j) (fun entries => ∀ e ∈ entries, P e.2)
    (fun e => P e.2) null prim list dict ?_ ?_ ?_ ?_ ?_ j
  · simp
  · intro j rest hj hrest
    exact List.forall_mem_cons.mpr ⟨hj, hrest⟩
  · simp
  · intro e rest he hrest
    exact List.forall_mem_cons.mpr ⟨he, hrest⟩
  · intro k j hj
    exact hj

section
variable (null : β) (prim : α → β) (list : List (Json α × β) → β)
  (dict : List (String × Json α × β) → β)

@[simp] theorem foldValues_null : foldValues null prim list dict .null = null := rfl

@[simp] theorem foldValues_prim (a : α) : foldValues null prim list dict (.prim a) = prim a := rfl

theorem fold_pair (j : Json α) :
    fold (Json.null, null) (fun a => (.prim a, prim a))
        (fun items => (.list (items.map Prod.fst), list items))
        (fun entries => (.dict (entries.map fun e => (e.1, e.2.1)), dict entries)) j
      = (j, foldValues null prim list dict j) := by
  refine Prod.ext ?_ rfl
  induction j with
  | null => rfl
  | prim a => rfl
  | list items ih =>
    rw [fold_list]
    refine congrArg Json.list ?_
    rw [List.map_map]
    exact (List.map_congr_left ih).trans (List.map_id _)
  | dict entries ih =>
    rw [fold_dict]
    refine congrArg Json.dict ?_
    rw [List.map_map]
    refine (List.map_congr_left fun e he => ?_).trans (List.map_id _)
    exact Prod.ext rfl (ih e he)

@[simp] theorem foldValues_list (items : List (Json α)) :
    foldValues null prim list dict (.list items)
      = list (items.map fun j => (j, foldValues null prim list dict j)) := by
  rw [foldValues, fold_list]
  exact congrArg list (List.map_congr_left fun j _ => fold_pair null prim list dict j)

@[simp] theorem foldValues_dict (entries : List (String × Json α)) :
    foldValues null prim list dict (.dict entries)
      = dict (entries.map fun e => (e.1, e.2, foldValues null prim list dict e.2)) := by
  rw [foldValues, fold_dict]
  exact congrArg dict
    (List.map_congr_left fun e _ => congrArg (Prod.mk e.1) (fold_pair null prim list dict e.2))

end

/-! ## Equality -/

section
variable [DecidableEq α]

mutual

/-- Equality of values, decided. -/
def eqb : Json α → Json α → Bool
  | .null, .null => true
  | .prim a, .prim b => a = b
  | .list items, .list items' => eqbItems items items'
  | .dict entries, .dict entries' => eqbEntries entries entries'
  | _, _ => false

def eqbItems : List (Json α) → List (Json α) → Bool
  | [], [] => true
  | j :: rest, j' :: rest' => eqb j j' && eqbItems rest rest'
  | _, _ => false

def eqbEntries : List (String × Json α) → List (String × Json α) → Bool
  | [], [] => true
  | (k, j) :: rest, (k', j') :: rest' => k = k' && eqb j j' && eqbEntries rest rest'
  | _, _ => false

end

theorem eqbItems_iff {items items' : List (Json α)}
    (h : ∀ j ∈ items, ∀ j', eqb j j' = true ↔ j = j') :
    eqbItems items items' = true ↔ items = items' := by
  induction items generalizing items' with
  | nil => cases items' <;> simp [eqbItems]
  | cons j rest ih =>
    rw [List.forall_mem_cons] at h
    cases items' with
    | nil => simp [eqbItems]
    | cons j' rest' => rw [eqbItems, Bool.and_eq_true, h.1, ih h.2, List.cons.injEq]

theorem eqbEntries_iff {entries entries' : List (String × Json α)}
    (h : ∀ e ∈ entries, ∀ j', eqb e.2 j' = true ↔ e.2 = j') :
    eqbEntries entries entries' = true ↔ entries = entries' := by
  induction entries generalizing entries' with
  | nil => cases entries' <;> simp [eqbEntries]
  | cons e rest ih =>
    rw [List.forall_mem_cons] at h
    cases entries' with
    | nil => simp [eqbEntries]
    | cons e' rest' =>
      rw [eqbEntries, Bool.and_eq_true, Bool.and_eq_true, h.1, ih h.2, decide_eq_true_eq,
        List.cons.injEq, Prod.ext_iff]

theorem eqb_iff (j j' : Json α) : eqb j j' = true ↔ j = j' := by
  induction j generalizing j' with
  | null => cases j' <;> simp [eqb]
  | prim a => cases j' <;> simp [eqb]
  | list items ih =>
    cases j' with
    | list items' => rw [eqb, eqbItems_iff ih, list.injEq]
    | _ => simp [eqb]
  | dict entries ih =>
    cases j' with
    | dict entries' => rw [eqb, eqbEntries_iff ih, dict.injEq]
    | _ => simp [eqb]

instance : DecidableEq (Json α) := fun j j' => decidable_of_iff _ (eqb_iff j j')

end

/-! ## Entries without a value -/

/-- Whether the value is `null`. -/
def isNull : Json α → Bool
  | .null => true
  | _ => false

@[simp] theorem isNull_iff {j : Json α} : j.isNull = true ↔ j = .null := by
  cases j <;> simp [isNull]

mutual

/-- The entries of the dictionaries in a value, at any depth. -/
def allEntries : Json α → List (String × Json α)
  | .list items => allEntriesOfItems items
  | .dict entries => allEntriesOfDict entries
  | _ => []

def allEntriesOfItems : List (Json α) → List (String × Json α)
  | [] => []
  | j :: rest => allEntries j ++ allEntriesOfItems rest

def allEntriesOfDict : List (String × Json α) → List (String × Json α)
  | [] => []
  | (k, j) :: rest => (k, j) :: allEntries j ++ allEntriesOfDict rest

end

theorem allEntriesOfItems_eq (items : List (Json α)) :
    allEntriesOfItems items = items.flatMap allEntries := by
  induction items with
  | nil => rfl
  | cons j rest ih => rw [allEntriesOfItems, ih, List.flatMap_cons]

theorem allEntriesOfDict_eq (entries : List (String × Json α)) :
    allEntriesOfDict entries = entries.flatMap fun e => e :: allEntries e.2 := by
  induction entries with
  | nil => rfl
  | cons e rest ih => rw [allEntriesOfDict, ih, List.flatMap_cons]

@[simp] theorem allEntries_list (items : List (Json α)) :
    allEntries (.list items) = items.flatMap allEntries := by
  rw [allEntries, allEntriesOfItems_eq]

@[simp] theorem allEntries_dict (entries : List (String × Json α)) :
    allEntries (.dict entries) = entries.flatMap fun e => e :: allEntries e.2 := by
  rw [allEntries, allEntriesOfDict_eq]

/-- No dictionary, at any depth, has a key with the value `null`. -/
def NullFree (j : Json α) : Prop := ∀ e ∈ j.allEntries, e.2.isNull = false

instance (j : Json α) : Decidable j.NullFree :=
  inferInstanceAs (Decidable (∀ e ∈ j.allEntries, e.2.isNull = false))

theorem nullFree_prim (a : α) : (prim a).NullFree := by
  intro e he
  exact absurd he (List.not_mem_nil)

theorem nullFree_list {items : List (Json α)} :
    (list items).NullFree ↔ ∀ j ∈ items, j.NullFree := by
  unfold NullFree
  rw [allEntries_list]
  simp only [List.mem_flatMap]
  exact ⟨fun h j hj e he => h e ⟨j, hj, he⟩, fun h e ⟨j, hj, he⟩ => h j hj e he⟩

theorem nullFree_dict {entries : List (String × Json α)} :
    (dict entries).NullFree ↔ ∀ e ∈ entries, e.2.isNull = false ∧ e.2.NullFree := by
  unfold NullFree
  rw [allEntries_dict]
  simp only [List.mem_flatMap, List.mem_cons]
  constructor
  · intro h e he
    exact ⟨h e ⟨e, he, Or.inl rfl⟩, fun x hx => h x ⟨e, he, Or.inr hx⟩⟩
  · intro h x hx
    obtain ⟨e, he, hxe | hxe⟩ := hx
    · rw [hxe]
      exact (h e he).1
    · exact (h e he).2 x hxe

/-- Takes the entries without a value out of every dictionary. -/
def dropNullEntries : Json α → Json α :=
  fold .null .prim .list fun entries => .dict (entries.filter fun e => !e.2.isNull)

@[simp] theorem dropNullEntries_list (items : List (Json α)) :
    dropNullEntries (.list items) = .list (items.map dropNullEntries) :=
  fold_list ..

@[simp] theorem isNull_dropNullEntries (j : Json α) : (dropNullEntries j).isNull = j.isNull := by
  cases j <;> rfl

theorem dropNullEntries_dict (entries : List (String × Json α)) :
    dropNullEntries (.dict entries)
      = .dict ((entries.filter fun e => !e.2.isNull).map fun e => (e.1, dropNullEntries e.2)) := by
  unfold dropNullEntries
  rw [fold_dict, List.filter_map]
  congr 2
  apply List.filter_congr
  intro e _
  exact congrArg not (isNull_dropNullEntries e.2)

theorem dropNullEntries_of_nullFree {j : Json α} (h : j.NullFree) : dropNullEntries j = j := by
  induction j with
  | null => rfl
  | prim a => rfl
  | list items ih =>
    rw [nullFree_list] at h
    rw [dropNullEntries_list, List.map_congr_left fun j hj => ih j hj (h j hj), List.map_id']
  | dict entries ih =>
    rw [nullFree_dict] at h
    have hfilter : entries.filter (fun e => !e.2.isNull) = entries := by
      apply List.filter_eq_self.mpr
      intro e he
      rw [(h e he).1, Bool.not_false]
    have hmap : ∀ e ∈ entries, (e.1, dropNullEntries e.2) = e := by
      intro e he
      rw [ih e he (h e he).2]
    rw [dropNullEntries_dict, hfilter, List.map_congr_left hmap, List.map_id']

/-! ## The order of keys -/

theorem sortedAsc_mapValues (f : α → β) (entries : List (String × α)) :
    sortedAsc Prod.fst (entries.map fun e => (e.1, f e.2))
      = (sortedAsc Prod.fst entries).map fun e => (e.1, f e.2) :=
  sortedAsc_map (f := fun e : String × α => (e.1, f e.2)) Prod.fst (fun _ => rfl) entries

def sortKeys : Json α → Json α :=
  fold .null .prim .list fun entries => .dict (sortedAsc Prod.fst entries)

@[simp] theorem sortKeys_prim (a : α) : sortKeys (.prim a) = .prim a := rfl

@[simp] theorem sortKeys_list (items : List (Json α)) :
    sortKeys (.list items) = .list (items.map sortKeys) :=
  fold_list ..

theorem sortKeys_dict (entries : List (String × Json α)) :
    sortKeys (.dict entries)
      = .dict ((sortedAsc Prod.fst entries).map fun e => (e.1, sortKeys e.2)) := by
  unfold sortKeys
  rw [fold_dict, sortedAsc_mapValues]

end Json

end OmnibaseCore
