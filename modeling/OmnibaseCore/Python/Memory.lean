import OmnibaseCore.Json.Value
import OmnibaseCore.Python.Dict

/-!
# Objects in memory

Dictionaries and lists as objects that refer to each other by their addresses, so that two values
can share a part, and a change of one object is seen by all that refer to it. `Stored read j r`
says that the value `j` is what the reference `r` stands for, as far as `read` tells the objects.

* `Stored.mono`: what is stored stays stored when more can be read.
-/

namespace OmnibaseCore

inductive Ref (α : Type) where
  | null
  | prim (a : α)
  | address (n : ℕ)

inductive Object (α : Type) where
  | list (items : List (Ref α))
  | dict (entries : List (String × Ref α))

abbrev Memory (α : Type) := List (Object α)

namespace Memory

variable {α : Type}

/-- The items of the dictionary at an address. -/
def entries (memory : Memory α) (n : ℕ) : Option (List (String × Ref α)) :=
  match memory[n]? with
  | some (.dict entries) => some entries
  | _ => none

/-- `isinstance(value, dict)`. -/
def isDict (memory : Memory α) : Ref α → Bool
  | .address n => (memory.entries n).isSome
  | _ => false

/-- `d[key] = value` for the dictionary at an address. -/
def setItem (memory : Memory α) (n : ℕ) (key : String) (value : Ref α) : Option (Memory α) := do
  let entries ← memory.entries n
  return memory.set n (.dict (Dict.setItem entries (key, value)))

/-- `d.update(e)` for the dictionary at an address, given the items of `e`. -/
def update (memory : Memory α) (n : ℕ) (items : List (String × Ref α)) : Option (Memory α) :=
  items.foldlM (fun memory e => memory.setItem n e.1 e.2) memory

variable {memory : Memory α} {n : ℕ}

variable {refs : List (String × Ref α)}

theorem entries_eq_some_iff :
    memory.entries n = some refs ↔ memory[n]? = some (.dict refs) := by
  unfold entries
  split
  · next entries h => rw [h, Option.some.injEq, Option.some.injEq, Object.dict.injEq]
  · next h =>
    constructor
    · exact fun h => nomatch h
    · exact fun hdict => absurd hdict (h refs)

theorem setItem_eq (h : memory[n]? = some (.dict refs)) (key : String) (value : Ref α) :
    memory.setItem n key value = some (memory.set n (.dict (Dict.setItem refs (key, value)))) := by
  unfold setItem
  rw [entries_eq_some_iff.mpr h]
  rfl

theorem update_eq (h : memory[n]? = some (.dict refs)) (items : List (String × Ref α)) :
    memory.update n items = some (memory.set n (.dict (Dict.update refs items))) := by
  unfold update Dict.update
  induction items generalizing memory refs with
  | nil =>
    show some memory = some (memory.set n (.dict refs))
    obtain ⟨hlt, hget⟩ := List.getElem?_eq_some_iff.mp h
    rw [← hget, List.set_getElem_self]
  | cons e items ih =>
    have hlt := (List.getElem?_eq_some_iff.mp h).1
    have hnext := ih (List.getElem?_set_self (a := .dict (Dict.setItem refs e)) hlt)
    rw [List.foldlM_cons, setItem_eq h]
    exact hnext.trans (by rw [List.set_set]; rfl)

end Memory

/-! ## Stored values -/

section
variable {α : Type} {read read' : ℕ → Option (Object α)}

/-- `j` is what the reference stands for. -/
def Stored (read : ℕ → Option (Object α)) : Json α → Ref α → Prop :=
  Json.fold (fun r => r = .null) (fun a r => r = .prim a)
    (fun items r => ∃ n refs, r = .address n ∧ read n = some (.list refs) ∧
      List.Forall₂ (fun stored ref => stored ref) items refs)
    fun entries r => ∃ n refs, r = .address n ∧ read n = some (.dict refs) ∧
      List.Forall₂ (fun e ref => ref.1 = e.1 ∧ e.2 ref.2) entries refs

/-- The items of a dictionary, stored at the same keys. -/
def StoredEntries (read : ℕ → Option (Object α)) (entries : List (String × Json α))
    (refs : List (String × Ref α)) : Prop :=
  List.Forall₂ (fun e ref => ref.1 = e.1 ∧ Stored read e.2 ref.2) entries refs

variable {r : Ref α}

theorem stored_list_iff {items : List (Json α)} :
    Stored read (.list items) r ↔ ∃ n refs, r = .address n ∧ read n = some (.list refs) ∧
      List.Forall₂ (Stored read) items refs := by
  unfold Stored
  rw [Json.fold_list]
  simp only [List.forall₂_map_left_iff]

variable {entries : List (String × Json α)}

theorem stored_dict_iff :
    Stored read (.dict entries) r ↔ ∃ n refs, r = .address n ∧ read n = some (.dict refs) ∧
      StoredEntries read entries refs := by
  unfold StoredEntries Stored
  rw [Json.fold_dict]
  simp only [List.forall₂_map_left_iff]

variable {j : Json α}

/-- What is stored stays stored when more can be read. -/
theorem Stored.mono (hread : ∀ n o, read n = some o → read' n = some o)
    (h : Stored read j r) : Stored read' j r := by
  induction j generalizing r with
  | null => exact h
  | prim a => exact h
  | list items ih =>
    rw [stored_list_iff] at h ⊢
    obtain ⟨n, refs, hr, hn, hitems⟩ := h
    refine ⟨n, refs, hr, hread n _ hn, ?_⟩
    clear hr hn
    induction hitems with
    | nil => exact .nil
    | cons hitem hitems ih' =>
      rw [List.forall_mem_cons] at ih
      exact .cons (ih.1 hitem) (ih' ih.2)
  | dict entries ih =>
    rw [stored_dict_iff] at h ⊢
    obtain ⟨n, refs, hr, hn, hentries⟩ := h
    refine ⟨n, refs, hr, hread n _ hn, ?_⟩
    clear hr hn
    induction hentries with
    | nil => exact .nil
    | cons hentry hentries ih' =>
      rw [List.forall_mem_cons] at ih
      exact .cons ⟨hentry.1, ih.1 hentry.2⟩ (ih' ih.2)

theorem StoredEntries.mono (hread : ∀ n o, read n = some o → read' n = some o)
    {refs : List (String × Ref α)}
    (h : StoredEntries read entries refs) : StoredEntries read' entries refs :=
  List.Forall₂.imp (fun _ _ he => ⟨he.1, he.2.mono hread⟩) h

/-! ## Items of dictionaries -/

section
variable {refs : List (String × Ref α)}
  (h : StoredEntries read entries refs)
include h

theorem StoredEntries.keys_eq : Dict.keys refs = Dict.keys entries := by
  induction h with
  | nil => rfl
  | cons he _ ih => rw [Dict.keys_cons, Dict.keys_cons, he.1, ih]

variable {key : String}

theorem StoredEntries.lookup_of_none (hkey : entries.lookup key = none) :
    refs.lookup key = none := by
  rw [Dict.lookup_eq_none_iff] at hkey ⊢
  rwa [h.keys_eq]

theorem StoredEntries.lookup_of_some (hkey : entries.lookup key = some j) :
    ∃ r, refs.lookup key = some r ∧ Stored read j r := by
  induction h with
  | nil => exact nomatch hkey
  | @cons e ref entries refs he _ ih =>
    obtain ⟨k, v⟩ := e
    obtain ⟨k', r⟩ := ref
    obtain ⟨rfl, hv⟩ := he
    by_cases heq : key = k'
    · rw [heq, Dict.lookup_cons_self, Option.some.injEq] at hkey
      rw [heq, Dict.lookup_cons_self, ← hkey]
      exact ⟨r, rfl, hv⟩
    · rw [Dict.lookup_cons_of_ne heq] at hkey ⊢
      exact ih hkey

/-- `d[k] = v` on the references. -/
theorem StoredEntries.setItem {r : Ref α} (hr : Stored read j r) :
    StoredEntries read (Dict.setItem entries (key, j)) (Dict.setItem refs (key, r)) := by
  unfold Dict.setItem
  rw [h.keys_eq]
  split_ifs with hkey
  · unfold StoredEntries
    rw [List.forall₂_map_left_iff, List.forall₂_map_right_iff]
    refine List.Forall₂.imp (fun e ref he => ?_) h
    rw [he.1]
    split_ifs
    · exact ⟨rfl, hr⟩
    · exact he
  · exact List.rel_append h (.cons ⟨rfl, hr⟩ .nil)

end

section
variable {refs : List (String × Ref α)}

/-- The items at some of the keys. -/
theorem StoredEntries.filter (h : StoredEntries read entries refs) (p : String → Bool) :
    StoredEntries read (entries.filter fun e => p e.1) (refs.filter fun e => p e.1) := by
  induction h with
  | nil => exact .nil
  | @cons e ref entries refs he _ ih =>
    rw [List.filter_cons, List.filter_cons, he.1]
    split_ifs
    · exact .cons he ih
    · exact ih

/-- `d.update(e)` on the references. -/
theorem StoredEntries.update {entries' : List (String × Json α)} {refs' : List (String × Ref α)}
    (h : StoredEntries read entries refs) (h' : StoredEntries read entries' refs') :
    StoredEntries read (Dict.update entries entries') (Dict.update refs refs') := by
  unfold Dict.update
  induction h' generalizing entries refs with
  | nil => exact h
  | @cons e ref _ _ he _ ih =>
    obtain ⟨key, value⟩ := e
    obtain ⟨key', r⟩ := ref
    obtain ⟨rfl, hr⟩ := he
    exact ih (h.setItem hr)

end

theorem StoredEntries.append {memory : Memory α}
    {items : List (String × Ref α)} (h : StoredEntries (fun n => memory[n]?) entries items)
    (objects : List (Object α)) : StoredEntries (fun n => (memory ++ objects)[n]?) entries items :=
  h.mono fun n o hn => by
    have hlt := (List.getElem?_eq_some_iff.mp hn).1
    show (memory ++ objects)[n]? = some o
    rw [List.getElem?_append_left hlt]
    exact hn

theorem isDict_iff {memory : Memory α} (hread : ∀ n o, read n = some o → memory[n]? = some o)
    (h : Stored read j r) : memory.isDict r = true ↔ ∃ entries, j = .dict entries := by
  cases j with
  | null =>
    rw [show r = .null from h]
    simp [Memory.isDict]
  | prim a =>
    rw [show r = .prim a from h]
    simp [Memory.isDict]
  | list items =>
    obtain ⟨n, refs, rfl, hn, -⟩ := stored_list_iff.mp h
    simp [Memory.isDict, Memory.entries, hread n _ hn]
  | dict entries =>
    obtain ⟨n, refs, rfl, hn, -⟩ := stored_dict_iff.mp h
    simp [Memory.isDict, Memory.entries, hread n _ hn]

end

end OmnibaseCore
