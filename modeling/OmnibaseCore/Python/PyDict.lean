import OmnibaseCore.Python.Dict

/-!
# Dictionaries with distinct keys

A dictionary together with the proof that its keys are distinct, so that a key has one value. What
`d[key] = value`, `del d[key]` and `d.clear()` do is said by the value of every key.
-/

namespace OmnibaseCore

structure PyDict (κ ν : Type) where
  entries : List (κ × ν) := []
  nodup_keys : (Dict.keys entries).Nodup := by exact List.nodup_nil

namespace PyDict

variable {κ ν : Type}

theorem ext_entries {d d' : PyDict κ ν} (h : d.entries = d'.entries) : d = d' := by
  cases d
  cases d'
  congr

def empty : PyDict κ ν := {}

/-- `len(d)`. -/
def size (d : PyDict κ ν) : ℕ := d.entries.length

/-- `del d[next(iter(d))]`. -/
def delFirst (d : PyDict κ ν) : PyDict κ ν where
  entries := d.entries.tail
  nodup_keys := d.nodup_keys.sublist ((List.tail_sublist d.entries).map Prod.fst)

@[simp] theorem size_delFirst (d : PyDict κ ν) : d.delFirst.size = d.size - 1 :=
  List.length_tail

variable [DecidableEq κ]

/-- `d.get(key)`. -/
def get (d : PyDict κ ν) (key : κ) : Option ν := d.entries.lookup key

/-- `key in d`. -/
def contains (d : PyDict κ ν) (key : κ) : Bool := (d.get key).isSome

/-- `d[key] = value`. -/
def setItem (d : PyDict κ ν) (key : κ) (value : ν) : PyDict κ ν where
  entries := Dict.setItem d.entries (key, value)
  nodup_keys := Dict.nodup_keys_setItem (key, value) d.nodup_keys

/-- `del d[key]`, or nothing if the key is not there. -/
def delItem (d : PyDict κ ν) (key : κ) : PyDict κ ν where
  entries := d.entries.filter fun e => e.1 ≠ key
  nodup_keys := d.nodup_keys.sublist (List.filter_sublist.map Prod.fst)

/-- `{k: v for k, v in d.items() if p(k)}`. -/
def filterKeys (d : PyDict κ ν) (p : κ → Bool) : PyDict κ ν where
  entries := d.entries.filter fun e => p e.1
  nodup_keys := d.nodup_keys.sublist (List.filter_sublist.map Prod.fst)

/-- `d[key] = f(d[key])`, or nothing if the key is not there. -/
def modify (d : PyDict κ ν) (key : κ) (f : ν → ν) : PyDict κ ν :=
  match d.get key with
  | none => d
  | some value => d.setItem key (f value)

section
variable (d : PyDict κ ν) (key : κ) (value : ν)

theorem get_eq_some_iff : d.get key = some value ↔ (key, value) ∈ d.entries :=
  Dict.lookup_eq_some_iff d.nodup_keys

theorem get_of_get_delFirst {d : PyDict κ ν} {key : κ} {value : ν}
    (h : d.delFirst.get key = some value) : d.get key = some value := by
  rw [get_eq_some_iff] at h ⊢
  exact List.mem_of_mem_tail h

theorem contains_iff : d.contains key = true ↔ key ∈ Dict.keys d.entries := by
  unfold contains get
  rw [Option.isSome_iff_exists]
  exact Dict.exists_lookup_iff

theorem get_setItem (k : κ) :
    (d.setItem key value).get k = if k = key then some value else d.get k :=
  Dict.lookup_setItem d.entries (key, value) k

theorem get_delItem (k : κ) : (d.delItem key).get k = if k = key then none else d.get k := by
  show List.lookup k (d.entries.filter fun e => e.1 ≠ key) = _
  rw [Dict.lookup_filter d.nodup_keys]
  show (d.get k).filter (fun _ => decide (k ≠ key)) = _
  split_ifs with hk
  · simp [hk]
  · cases d.get k with
    | none => rfl
    | some v => simp [hk]

theorem setItem_of_get {d : PyDict κ ν} {key : κ} {value : ν} (h : d.get key = some value) :
    d.setItem key value = d :=
  ext_entries (Dict.setItem_of_lookup d.nodup_keys h)

theorem get_filterKeys (p : κ → Bool) (k : κ) :
    (d.filterKeys p).get k = if p k then d.get k else none := by
  show List.lookup k (d.entries.filter fun e => p e.1) = _
  rw [Dict.lookup_filter d.nodup_keys]
  show (d.get k).filter (fun _ => p k) = _
  cases d.get k with
  | none =>
    rw [ite_self]
    rfl
  | some v => by_cases hp : p k = true <;> simp [hp]

theorem filterKeys_of_forall {d : PyDict κ ν} {p : κ → Bool}
    (h : ∀ k, d.get k ≠ none → p k = true) : d.filterKeys p = d := by
  apply ext_entries
  apply List.filter_eq_self.mpr
  intro e he
  apply h
  rw [(get_eq_some_iff d e.1 e.2).mpr he]
  exact Option.some_ne_none e.2

theorem filterKeys_eq_nil_iff {d : PyDict κ ν} {p : κ → Bool} :
    (d.filterKeys p).entries = [] ↔ ∀ k, d.get k ≠ none → p k = false := by
  show d.entries.filter _ = [] ↔ _
  rw [List.filter_eq_nil_iff]
  constructor
  · intro h k hk
    obtain ⟨v, hv⟩ := Option.ne_none_iff_exists'.mp hk
    simpa using h (k, v) ((get_eq_some_iff d k v).mp hv)
  · intro h e he
    rw [h e.1 (by rw [(get_eq_some_iff d e.1 e.2).mpr he]; exact Option.some_ne_none e.2)]
    exact Bool.false_ne_true

theorem get_modify (f : ν → ν) (k : κ) :
    (d.modify key f).get k = if k = key then (d.get k).map f else d.get k := by
  unfold modify
  by_cases hk : k = key
  · rw [if_pos hk, hk]
    cases hget : d.get key with
    | none => exact hget
    | some v => exact (get_setItem d key (f v) key).trans (if_pos rfl)
  · rw [if_neg hk]
    cases hget : d.get key with
    | none => rfl
    | some v => exact (get_setItem d key (f v) k).trans (if_neg hk)

theorem modify_of_fixed {d : PyDict κ ν} {key : κ} {f : ν → ν}
    (h : ∀ v, d.get key = some v → f v = v) : d.modify key f = d := by
  unfold modify
  cases hget : d.get key with
  | none => rfl
  | some v =>
    dsimp only
    rw [h v hget]
    exact setItem_of_get hget

theorem size_setItem :
    (d.setItem key value).size = if d.contains key then d.size else d.size + 1 := by
  have hkeys := congrArg List.length (Dict.keys_setItem d.entries (key, value))
  unfold size setItem
  rw [Dict.keys, List.length_map] at hkeys
  rw [hkeys]
  split_ifs with hmem hcontains hcontains
  · exact List.length_map Prod.fst
  · exact absurd ((contains_iff d key).mpr hmem) hcontains
  · exact absurd ((contains_iff d key).mp hcontains) hmem
  · simp [Dict.keys]

theorem size_delItem (h : d.contains key = true) : (d.delItem key).size + 1 = d.size := by
  have hmem : key ∈ Dict.keys d.entries := (contains_iff d key).mp h
  have hkeys : Dict.keys (d.delItem key).entries = (Dict.keys d.entries).erase key := by
    rw [d.nodup_keys.erase_eq_filter]
    unfold Dict.keys
    rw [List.filter_map]
    congr 1
    apply List.filter_congr
    intro e _
    by_cases he : e.1 = key
    · simp [he]
    · simp [he]
  have hlength := congrArg List.length hkeys
  have hpos := List.length_pos_of_mem hmem
  rw [List.length_erase_of_mem hmem, Dict.keys, List.length_map] at hlength
  rw [Dict.keys, List.length_map] at hlength hpos
  unfold size
  omega

end

end PyDict

end OmnibaseCore
