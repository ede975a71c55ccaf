import OmnibaseCore.Python.Memory

/-!
# The merge rules for dictionaries

`merge_dict`, on values (`mergeDict`) and on the objects in memory that it makes and changes
(`mergeDictAt`).
-/

namespace OmnibaseCore.Merge

variable {α : Type}

/-! ## Values -/

mutual

/-- `merge_dict`: the loop over the items of the patch, with the result so far. -/
def mergeDict : List (String × Json α) → List (String × Json α) → List (String × Json α)
  | result, [] => result
  | result, (key, patchValue) :: rest =>
    mergeDict (Dict.setItem result (key, mergeValue (result.lookup key) patchValue)) rest

def mergeValue : Option (Json α) → Json α → Json α
  | some (.dict base), .dict patch => .dict (mergeDict base patch)
  | _, patchValue => patchValue

end

/-! ## Objects -/

/-- One turn of the loop of `merge_dict`, given the call for the dictionaries at a common key. -/
def mergeItem (mergeDict : Memory α → ℕ → ℕ → Option (Memory α × ℕ)) (result : ℕ)
    (memory : Memory α) (item : String × Ref α) : Option (Memory α) := do
  let entries ← memory.entries result
  match entries.lookup item.1, item.2 with
  | some (.address base), .address patch =>
    if memory.isDict (.address base) && memory.isDict (.address patch) then do
      let (memory, merged) ← mergeDict memory base patch
      memory.setItem result item.1 (.address merged)
    else memory.setItem result item.1 (.address patch)
  | _, patchValue => memory.setItem result item.1 patchValue

/-- `merge_dict` of the dictionaries at two addresses: the memory after the call and the address
that it returns, if at most `fuel` calls are under way at a time. -/
def mergeDictAt : ℕ → Memory α → ℕ → ℕ → Option (Memory α × ℕ)
  | 0, _, _, _ => none
  | fuel + 1, memory, base, patch => do
    let baseEntries ← memory.entries base
    let patchEntries ← memory.entries patch
    -- `result = dict(base)` is a new object
    let result := memory.length
    let memory ← patchEntries.foldlM (mergeItem (mergeDictAt fuel) result)
      (memory ++ [.dict baseEntries])
    return (memory, result)

/-- The base and the patch of the docstring, the patch after the base. -/
def dbMemory : Memory String :=
  [.dict [("host", .prim "localhost"), ("port", .prim "5432")], .dict [("db", .address 0)],
    .dict [("port", .prim "5433")], .dict [("enabled", .prim "true")],
    .dict [("db", .address 2), ("cache", .address 3)]]

example : (mergeDictAt 2 dbMemory 1 4).map (fun r => (r.1.drop 5, r.2)) = some
    ([.dict [("db", .address 6), ("cache", .address 3)],
      .dict [("host", .prim "localhost"), ("port", .prim "5433")]], 5) := by
  rfl

/-!
## Deep merges

* `pathLaw`: what the merged dictionary holds at a path of keys, by what the path leads to in the
  patch.
* `mergeDict_mergeDict`: a patch that is merged twice changes nothing the second time.
* `mergeDictAt_mergesDict`: `merge_dict` on objects returns a new object for the merged dictionary, and
  no object that was there before has changed.
-/

variable {α : Type} {b p m : List (String × Json α)}

/-! ## Keys -/

theorem lookup_mergeDict (hp : (Dict.keys p).Nodup) (key : String) :
    (mergeDict b p).lookup key = match p.lookup key with
      | none => b.lookup key
      | some v => some (mergeValue (b.lookup key) v) := by
  induction p generalizing b with
  | nil => rw [mergeDict, List.lookup_nil]
  | cons e rest ih =>
    obtain ⟨k, v⟩ := e
    rw [Dict.keys_cons, List.nodup_cons] at hp
    rw [mergeDict, ih hp.2, Dict.lookup_setItem]
    by_cases heq : key = k
    · have hnone : rest.lookup k = none := Dict.lookup_eq_none_iff.mpr hp.1
      rw [heq, hnone, Dict.lookup_cons_self]
      simp
    · rw [Dict.lookup_cons_of_ne heq]
      simp [heq]

theorem nodup_keys_mergeDict (hb : (Dict.keys b).Nodup) : (Dict.keys (mergeDict b p)).Nodup := by
  induction p generalizing b with
  | nil =>
    rw [mergeDict]
    exact hb
  | cons e rest ih =>
    obtain ⟨k, v⟩ := e
    rw [mergeDict]
    exact ih (Dict.nodup_keys_setItem _ hb)

theorem mergeDict_eq_self (hm : (Dict.keys m).Nodup)
    (h : ∀ e ∈ p, ∃ v, m.lookup e.1 = some v ∧ mergeValue (some v) e.2 = v) :
    mergeDict m p = m := by
  induction p with
  | nil => rw [mergeDict]
  | cons e rest ih =>
    obtain ⟨k, v⟩ := e
    rw [List.forall_mem_cons] at h
    obtain ⟨⟨w, hw, hsame⟩, hrest⟩ := h
    dsimp only at hw hsame
    rw [mergeDict, hw, hsame, Dict.setItem_of_lookup hm hw, ih hrest]

variable {v : Json α}

theorem mergeValue_of_not_dict (h : ∀ entries, v ≠ .dict entries) (current : Option (Json α)) :
    mergeValue current v = v := by
  cases v with
  | dict entries => exact absurd rfl (h entries)
  | _ =>
    rw [mergeValue]
    simp

variable {current : Option (Json α)}

theorem mergeValue_of_not_dict_base (h : ¬ ∃ base, current = some (.dict base)) (v : Json α) :
    mergeValue current v = v := by
  cases current with
  | none =>
    rw [mergeValue]
    simp
  | some j =>
    cases j with
    | dict base => exact absurd ⟨base, rfl⟩ h
    | _ =>
      rw [mergeValue]
      simp

/-! ## Twice the same patch -/

theorem mergeDict_self_of {entries : List (String × Json α)} (hkeys : (Dict.keys entries).Nodup)
    (h : ∀ e ∈ entries, mergeValue (some e.2) e.2 = e.2) : mergeDict entries entries = entries :=
  mergeDict_eq_self hkeys fun e he => ⟨e.2, (Dict.lookup_eq_some_iff hkeys).mpr he, h e he⟩

theorem mergeValue_self (hv : v.UniqueKeys) : mergeValue (some v) v = v := by
  induction v with
  | dict entries ih =>
    rw [Json.uniqueKeys_dict] at hv
    rw [mergeValue, mergeDict_self_of hv.1 fun e he => ih e he (hv.2 e he)]
  | _ => exact mergeValue_of_not_dict (by simp) _

theorem uniqueKeys_of_lookup {key : String} (hb : (Json.dict b).UniqueKeys)
    (h : b.lookup key = some v) : v.UniqueKeys :=
  (Json.uniqueKeys_dict.mp hb).2 _ (Dict.mem_of_lookup h)

theorem mergeDict_mergeDict_of (hb : (Json.dict b).UniqueKeys) (hp : (Dict.keys p).Nodup)
    (h : ∀ e ∈ p, ∀ current : Option (Json α), (∀ v ∈ current, v.UniqueKeys) →
      mergeValue (some (mergeValue current e.2)) e.2 = mergeValue current e.2) :
    mergeDict (mergeDict b p) p = mergeDict b p := by
  have hkeys : (Dict.keys b).Nodup := (Json.uniqueKeys_dict.mp hb).1
  refine mergeDict_eq_self (nodup_keys_mergeDict hkeys) fun e he => ?_
  refine ⟨mergeValue (b.lookup e.1) e.2, ?_, ?_⟩
  · rw [lookup_mergeDict hp, (Dict.lookup_eq_some_iff hp).mpr he]
  · exact h e he _ fun v hv => uniqueKeys_of_lookup hb hv

theorem mergeValue_mergeValue (hcurrent : ∀ j ∈ current, j.UniqueKeys) (hv : v.UniqueKeys) :
    mergeValue (some (mergeValue current v)) v = mergeValue current v := by
  induction v generalizing current with
  | dict entries ih =>
    have hkeys := Json.uniqueKeys_dict.mp hv
    by_cases hdict : ∃ base, current = some (.dict base)
    · obtain ⟨base, rfl⟩ := hdict
      rw [mergeValue, mergeValue, mergeDict_mergeDict_of (hcurrent _ rfl) hkeys.1
        fun e he o ho => ih e he ho (hkeys.2 e he)]
    · -- the dictionary of the patch is there, and is merged with itself
      rw [mergeValue_of_not_dict_base hdict, mergeValue_self hv]
  | _ => rw [mergeValue_of_not_dict (by simp), mergeValue_of_not_dict (by simp)]

theorem mergeDict_mergeDict (hb : (Json.dict b).UniqueKeys) (hp : (Json.dict p).UniqueKeys) :
    mergeDict (mergeDict b p) p = mergeDict b p := by
  rw [Json.uniqueKeys_dict] at hp
  exact mergeDict_mergeDict_of hb hp.1 fun e he _ hcurrent =>
    mergeValue_mergeValue hcurrent (hp.2 e he)

theorem mergeDict_nil (b : List (String × Json α)) : mergeDict b [] = b := by rw [mergeDict]

/-! ## Paths -/

/-- What a path of keys leads to. -/
inductive Walk (α : Type)
  | found (j : Json α)
  | blocked
  | missing

/-- Follows a path of keys: it is blocked by a value that is no dictionary, or a dictionary on the
way does not have the key. -/
def walk : Json α → List String → Walk α
  | j, [] => .found j
  | .dict entries, key :: path =>
    match entries.lookup key with
    | none => .missing
    | some j => walk j path
  | _, _ :: _ => .blocked

def getPath (j : Json α) (path : List String) : Option (Json α) :=
  match walk j path with
  | .found v => some v
  | _ => none

@[simp] theorem getPath_nil (j : Json α) : getPath j [] = some j := by
  unfold getPath
  rw [walk]

theorem getPath_cons (entries : List (String × Json α)) (key : String) (path : List String) :
    getPath (.dict entries) (key :: path) = (entries.lookup key).bind fun j => getPath j path := by
  unfold getPath
  rw [walk]
  cases entries.lookup key <;> rfl

theorem getPath_of_not_dict {j : Json α} (h : ∀ entries, j ≠ .dict entries) (key : String)
    (path : List String) : getPath j (key :: path) = none := by
  cases j with
  | dict entries => exact absurd rfl (h entries)
  | _ => rfl

/-- What should be at a path, by what it leads to in the patch and the value of the base there: the
value of the patch, two dictionaries merged; nothing where a value that is no dictionary blocks the
way in the patch; the value of the base where the patch has no entry. -/
def mergedAt : Walk α → Option (Json α) → Option (Json α)
  | .found (.dict patch), some (.dict base) => some (.dict (mergeDict base patch))
  | .found v, _ => some v
  | .blocked, _ => none
  | .missing, base => base

def PathLaw (b p : List (String × Json α)) (path : List String) : Prop :=
  getPath (.dict (mergeDict b p)) path = mergedAt (walk (.dict p) path) (getPath (.dict b) path)

theorem bind_getPath_of_not_dict (h : ¬ ∃ base, current = some (.dict base)) (path : List String) :
    (∀ base, (current.bind fun j => getPath j path) ≠ some (.dict base)) ∧
      (path ≠ [] → (current.bind fun j => getPath j path) = none) := by
  cases current with
  | none => exact ⟨nofun, fun _ => rfl⟩
  | some j =>
    have hleaf : ∀ entries, j ≠ .dict entries := fun entries heq => h ⟨entries, heq ▸ rfl⟩
    rw [Option.bind_some]
    cases path with
    | nil =>
      rw [getPath_nil]
      exact ⟨fun base heq => hleaf base (Option.some.inj heq), fun h => absurd rfl h⟩
    | cons key path =>
      rw [getPath_of_not_dict hleaf]
      exact ⟨nofun, fun _ => rfl⟩

theorem getPath_of_replaced {other : Option (Json α)} {path : List String}
    (hother : ∀ base, other ≠ some (.dict base)) (hpath : path ≠ [] → other = none) :
    getPath v path = mergedAt (walk v path) other := by
  unfold getPath
  cases hwalk : walk v path with
  | found v =>
    cases other with
    | none => cases v <;> rfl
    | some j =>
      cases j with
      | dict base => exact absurd rfl (hother base)
      | _ => cases v <;> rfl
  | blocked => rfl
  | missing =>
    have hne : path ≠ [] := by
      rintro rfl
      rw [walk] at hwalk
      exact nomatch hwalk
    exact (hpath hne).symm

theorem getPath_of_leaf (hv : ∀ entries, v ≠ .dict entries) (path : List String)
    (other : Option (Json α)) : getPath v path = mergedAt (walk v path) other := by
  cases path with
  | nil =>
    rw [getPath_nil, walk]
    cases v with
    | dict entries => exact absurd rfl (hv entries)
    | _ => rfl
  | cons key path =>
    cases v with
    | dict entries => exact absurd rfl (hv entries)
    | _ => rfl

theorem pathLaw (hp : (Json.dict p).UniqueKeys) (path : List String) : PathLaw b p path := by
  induction path generalizing b p with
  | nil =>
    unfold PathLaw
    rw [walk, getPath_nil, getPath_nil]
    rfl
  | cons key path ih =>
    have hkeys := Json.uniqueKeys_dict.mp hp
    unfold PathLaw
    rw [walk, getPath_cons, getPath_cons, lookup_mergeDict hkeys.1]
    cases hlookup : p.lookup key with
    | none => rfl
    | some v =>
      rw [Option.bind_some]
      by_cases hdict : ∃ patch, v = .dict patch
      · obtain ⟨patch, rfl⟩ := hdict
        by_cases hbase : ∃ base, b.lookup key = some (.dict base)
        · obtain ⟨base, hbase⟩ := hbase
          rw [hbase, mergeValue]
          exact ih (uniqueKeys_of_lookup hp hlookup)
        · obtain ⟨hother, hpath⟩ := bind_getPath_of_not_dict hbase path
          rw [mergeValue_of_not_dict_base hbase]
          exact getPath_of_replaced hother hpath
      · have hleaf : ∀ patch, v ≠ .dict patch := fun patch h => hdict ⟨patch, h⟩
        rw [mergeValue_of_not_dict hleaf]
        exact getPath_of_leaf hleaf path _

/-! ## The objects -/

section
variable {read : ℕ → Option (Object α)} {memory₀ memory : Memory α}

def ReadsFrom (read : ℕ → Option (Object α)) (memory : Memory α) : Prop :=
  ∀ n o, read n = some o → memory[n]? = some o

/-- What can be read after a call: what could be read before, and the objects made since. -/
def readSince (read : ℕ → Option (Object α)) (start : ℕ) (memory : Memory α) (n : ℕ) :
    Option (Object α) :=
  if n < start then read n else memory[n]?

/-- The same without the object that the loop is about to change. -/
def readApart (read : ℕ → Option (Object α)) (result : ℕ) (memory : Memory α) (n : ℕ) :
    Option (Object α) :=
  if n = result then none else readSince read result memory n

variable {n : ℕ} {o : Object α}

theorem getElem?_of_prefix {memory memory' : Memory α} (h : memory <+: memory')
    (hn : memory[n]? = some o) : memory'[n]? = some o := by
  obtain ⟨rest, rfl⟩ := h
  rw [List.getElem?_append_left (List.getElem?_eq_some_iff.mp hn).1]
  exact hn

theorem ReadsFrom.lt (hread : ReadsFrom read memory) (h : read n = some o) : n < memory.length :=
  (List.getElem?_eq_some_iff.mp (hread n o h)).1

theorem ReadsFrom.apart (hread : ReadsFrom read memory₀) (h : memory₀ <+: memory) :
    ReadsFrom (readApart read memory₀.length memory) memory := by
  intro n o hn
  unfold readApart readSince at hn
  split_ifs at hn
  · exact getElem?_of_prefix h (hread n o hn)
  · exact hn

theorem ReadsFrom.readApart_of_read (hread : ReadsFrom read memory₀) (memory : Memory α)
    (h : read n = some o) : readApart read memory₀.length memory n = some o := by
  have hlt := hread.lt h
  unfold readApart readSince
  rw [if_neg hlt.ne, if_pos hlt]
  exact h

/-- The loop after some items of the patch: no object from before has changed, and the new one
holds these entries. -/
structure Loop (read : ℕ → Option (Object α)) (memory₀ memory : Memory α)
    (entries : List (String × Json α)) : Prop where
  isPrefix : memory₀ <+: memory
  stored : ∃ refs, memory[memory₀.length]? = some (.dict refs) ∧
    StoredEntries (readApart read memory₀.length memory) entries refs

variable {entries : List (String × Json α)}

theorem Loop.setItem (hloop : Loop read memory₀ memory entries) (key : String) {j : Json α}
    {r : Ref α} (hj : Stored (readApart read memory₀.length memory) j r) :
    ∃ memory', memory.setItem memory₀.length key r = some memory' ∧
      Loop read memory₀ memory' (Dict.setItem entries (key, j)) := by
  obtain ⟨refs, hrefs, hstored⟩ := hloop.stored
  have hlt := (List.getElem?_eq_some_iff.mp hrefs).1
  refine ⟨memory.set memory₀.length (.dict (Dict.setItem refs (key, r))), ?_, ?_, ?_⟩
  · unfold Memory.setItem
    rw [Memory.entries_eq_some_iff.mpr hrefs]
    rfl
  · obtain ⟨rest, rfl⟩ := hloop.isPrefix
    rw [List.set_append_right _ _ le_rfl]
    exact List.prefix_append _ _
  · refine ⟨_, List.getElem?_set_self hlt, ?_⟩
    have hsame : readApart read memory₀.length
        (memory.set memory₀.length (.dict (Dict.setItem refs (key, r))))
          = readApart read memory₀.length memory := by
      funext n
      unfold readApart readSince
      split_ifs with hn
      · rfl
      · rfl
      · rw [List.getElem?_set_ne (Ne.symm hn)]
    rw [hsame]
    exact hstored.setItem hj

/-- What a call of `merge_dict` does. -/
def MergesDict (call : Memory α → ℕ → ℕ → Option (Memory α × ℕ)) (p : List (String × Json α)) :
    Prop :=
  ∀ (read : ℕ → Option (Object α)) (memory : Memory α) (b : List (String × Json α))
    (base patch : ℕ), ReadsFrom read memory → Stored read (.dict b) (.address base) →
    Stored read (.dict p) (.address patch) →
    ∃ memory', call memory base patch = some (memory', memory.length) ∧ memory <+: memory' ∧
      Stored (readSince read memory.length memory') (.dict (mergeDict b p)) (.address memory.length)

theorem Loop.grow {memory' : Memory α} (hloop : Loop read memory₀ memory entries)
    (h : memory <+: memory') : Loop read memory₀ memory' entries ∧ ∀ n o,
      readSince (readApart read memory₀.length memory) memory.length memory' n = some o →
        readApart read memory₀.length memory' n = some o := by
  obtain ⟨refs, hrefs, hstored⟩ := hloop.stored
  have hlt := (List.getElem?_eq_some_iff.mp hrefs).1
  have hapart : ∀ n o, readApart read memory₀.length memory n = some o →
      readApart read memory₀.length memory' n = some o := by
    intro n o hn
    unfold readApart readSince at hn ⊢
    split_ifs at hn ⊢
    · exact hn
    · exact getElem?_of_prefix h hn
  refine ⟨⟨hloop.isPrefix.trans h, refs, getElem?_of_prefix h hrefs, hstored.mono hapart⟩, ?_⟩
  intro n o hn
  unfold readSince at hn
  split_ifs at hn with hbefore
  · exact hapart n o hn
  · unfold readApart readSince
    rw [if_neg (by omega), if_neg (by omega)]
    exact hn

variable {call : Memory α → ℕ → ℕ → Option (Memory α × ℕ)}

/-- A turn of the loop of `merge_dict`, in memory. -/
theorem mergeItem_spec {key : String} {v : Json α} {r : Ref α} (hread : ReadsFrom read memory₀)
    (hcall : ∀ patch, v = .dict patch → MergesDict call patch)
    (hloop : Loop read memory₀ memory entries) (hv : Stored read v r) :
    ∃ memory', mergeItem call memory₀.length memory (key, r) = some memory' ∧
      Loop read memory₀ memory'
        (Dict.setItem entries (key, mergeValue (entries.lookup key) v)) := by
  obtain ⟨refs, hrefs, hstored⟩ := hloop.stored
  have hreads := hread.apart hloop.isPrefix
  have hv' := hv.mono fun n o => hread.readApart_of_read memory (n := n) (o := o)
  unfold mergeItem
  rw [Memory.entries_eq_some_iff.mpr hrefs]
  dsimp only [Option.bind_eq_bind, Option.bind_some]
  by_cases hboth : ∃ base patch, entries.lookup key = some (.dict base) ∧ v = .dict patch
  · obtain ⟨base, patch, hbase, rfl⟩ := hboth
    obtain ⟨rBase, hlookup, hrBase⟩ := hstored.lookup_of_some hbase
    have hdictBase := (isDict_iff hreads hrBase).mpr ⟨_, rfl⟩
    have hdictPatch := (isDict_iff hreads hv').mpr ⟨_, rfl⟩
    obtain ⟨nBase, -, rfl, -⟩ := stored_dict_iff.mp hrBase
    obtain ⟨nPatch, -, rfl, -⟩ := stored_dict_iff.mp hv'
    obtain ⟨memory', hcalled, hgrow, hmerged⟩ := hcall patch rfl _ memory base nBase nPatch hreads
      hrBase hv'
    obtain ⟨hloop', hmore⟩ := hloop.grow hgrow
    rw [hlookup, hbase, mergeValue]
    dsimp only
    rw [hdictBase, hdictPatch, Bool.and_self, if_pos rfl, hcalled]
    exact hloop'.setItem key (hmerged.mono hmore)
  · -- the value of the patch is assigned as it is
    have hvalue : mergeValue (entries.lookup key) v = v := by
      by_cases hdict : ∃ patch, v = .dict patch
      · obtain ⟨patch, rfl⟩ := hdict
        exact mergeValue_of_not_dict_base (fun ⟨base, hbase⟩ => hboth ⟨base, patch, hbase, rfl⟩) _
      · exact mergeValue_of_not_dict (fun patch h => hdict ⟨patch, h⟩) _
    rw [hvalue]
    have hset := hloop.setItem key hv'
    split
    · next nBase nPatch hlookup =>
      have hnot : ¬ (memory.isDict (.address nBase) = true ∧
          memory.isDict (.address nPatch) = true) := by
        rintro ⟨hdictBase, hdictPatch⟩
        obtain ⟨patch, rfl⟩ := (isDict_iff hreads hv').mp hdictPatch
        cases hentry : entries.lookup key with
        | none =>
          rw [hstored.lookup_of_none hentry] at hlookup
          exact nomatch hlookup
        | some j =>
          obtain ⟨rBase, hlookup', hrBase⟩ := hstored.lookup_of_some hentry
          rw [hlookup, Option.some.injEq] at hlookup'
          obtain ⟨base, rfl⟩ := (isDict_iff hreads hrBase).mp (hlookup' ▸ hdictBase)
          exact hboth ⟨base, patch, hentry, rfl⟩
      rw [← Bool.and_eq_true] at hnot
      rw [if_neg hnot]
      exact hset
    · exact hset

theorem mergeItems_spec {refs : List (String × Ref α)} (hread : ReadsFrom read memory₀)
    (hcall : ∀ e ∈ p, ∀ patch, e.2 = .dict patch → MergesDict call patch)
    (hloop : Loop read memory₀ memory entries) (hp : StoredEntries read p refs) :
    ∃ memory', refs.foldlM (mergeItem call memory₀.length) memory = some memory' ∧
      Loop read memory₀ memory' (mergeDict entries p) := by
  induction hp generalizing memory entries with
  | nil =>
    rw [mergeDict]
    exact ⟨memory, rfl, hloop⟩
  | @cons e ref p refs he _ ih =>
    obtain ⟨key, v⟩ := e
    obtain ⟨key', r⟩ := ref
    obtain ⟨rfl, hv⟩ := he
    rw [List.forall_mem_cons] at hcall
    obtain ⟨next, hnext, hloop'⟩ := mergeItem_spec hread hcall.1 hloop hv
    obtain ⟨memory', hrest, hend⟩ := ih hcall.2 hloop'
    refine ⟨memory', ?_, ?_⟩
    · rw [List.foldlM_cons, hnext]
      exact hrest
    · rw [mergeDict]
      exact hend

/-- The number of dictionaries inside each other. -/
def levels : Json α → ℕ :=
  Json.fold 0 (fun _ => 0) (fun _ => 0) fun entries => (entries.map Prod.snd).foldr max 0 + 1

theorem levels_lt_of_mem {e : String × Json α} (he : e ∈ entries) :
    levels e.2 < levels (.dict entries) := by
  have hle : ∀ (l : List ℕ) (n : ℕ), n ∈ l → n ≤ l.foldr max 0 := by
    intro l n hn
    induction l with
    | nil => exact nomatch hn
    | cons k l ih =>
      rw [List.foldr_cons]
      rcases List.mem_cons.mp hn with rfl | hn
      · exact le_max_left _ _
      · exact (ih hn).trans (le_max_right _ _)
  unfold levels
  rw [Json.fold_dict, List.map_map, Nat.lt_succ_iff]
  exact hle _ _ (List.mem_map.mpr ⟨e, he, rfl⟩)

/-- With enough fuel the patch is merged to all its depth. -/
theorem mergeDictAt_mergesDict {fuel : ℕ} (hfuel : levels (.dict p) ≤ fuel) :
    MergesDict (mergeDictAt (α := α) fuel) p := by
  induction fuel generalizing p with
  | zero =>
    unfold levels at hfuel
    rw [Json.fold_dict] at hfuel
    omega
  | succ fuel ih =>
    intro read memory b base patch hread hbase hpatch
    obtain ⟨_, refsBase, hbase, hrefsBase, hb⟩ := stored_dict_iff.mp hbase
    obtain ⟨_, refsPatch, hpatch, hrefsPatch, hp⟩ := stored_dict_iff.mp hpatch
    cases hbase
    cases hpatch
    have hstart : Loop read memory (memory ++ [.dict refsBase]) b := by
      refine ⟨List.prefix_append _ _, refsBase, List.getElem?_concat_length, hb.mono ?_⟩
      exact fun n o => hread.readApart_of_read _
    have hcall : ∀ e ∈ p, ∀ patch, e.2 = .dict patch →
        MergesDict (mergeDictAt (α := α) fuel) patch := by
      intro e he patch' heq
      have hlt := levels_lt_of_mem he
      rw [heq] at hlt
      exact ih (by omega)
    obtain ⟨memory', hrun, hend⟩ := mergeItems_spec hread hcall hstart hp
    obtain ⟨refs, hrefs, hstored⟩ := hend.stored
    refine ⟨memory', ?_, hend.isPrefix, ?_⟩
    · rw [mergeDictAt, Memory.entries_eq_some_iff.mpr (hread _ _ hrefsBase),
        Memory.entries_eq_some_iff.mpr (hread _ _ hrefsPatch)]
      dsimp only [Option.bind_eq_bind, Option.bind_some]
      rw [hrun]
      rfl
    · rw [stored_dict_iff]
      refine ⟨memory.length, refs, rfl, ?_, hstored.mono fun n o hn => ?_⟩
      · unfold readSince
        rw [if_neg (lt_irrefl _)]
        exact hrefs
      · unfold readApart at hn
        split_ifs at hn
        exact hn

end

/-! ## The law of deep merges -/

/-- A deep merge in which the last writer wins, for the dictionaries `b` and `p` at two
addresses. -/
structure DeepMerge (memory : Memory α) (base patch : ℕ) (b p : List (String × Json α)) :
    Prop where
  /-- The call returns a new object for the merged dictionary. No object has changed, and the two
  arguments are the same values as before. -/
  returns : ∀ fuel, levels (.dict p) ≤ fuel → ∃ memory' result,
    mergeDictAt fuel memory base patch = some (memory', result) ∧ memory <+: memory' ∧
      memory.length ≤ result ∧ Stored (memory'[·]?) (.dict (mergeDict b p)) (.address result) ∧
        Stored (memory'[·]?) (.dict b) (.address base) ∧
          Stored (memory'[·]?) (.dict p) (.address patch)
  paths : ∀ path, PathLaw b p path
  twice : mergeDict (mergeDict b p) p = mergeDict b p
  empty : mergeDict b [] = b

theorem mergeDictAt_deepMerge {memory : Memory α} {base patch : ℕ} (hb : (Json.dict b).UniqueKeys)
    (hp : (Json.dict p).UniqueKeys) (hbase : Stored (memory[·]?) (.dict b) (.address base))
    (hpatch : Stored (memory[·]?) (.dict p) (.address patch)) :
    DeepMerge memory base patch b p := by
  refine ⟨fun fuel hfuel => ?_, pathLaw hp, mergeDict_mergeDict hb hp, mergeDict_nil b⟩
  obtain ⟨memory', hrun, hprefix, hmerged⟩ :=
    mergeDictAt_mergesDict hfuel _ memory b base patch (fun n o hn => hn) hbase hpatch
  have hgrow : ∀ n o, memory[n]? = some o → memory'[n]? = some o :=
    fun n o => getElem?_of_prefix hprefix
  refine ⟨memory', memory.length, hrun, hprefix, le_rfl, hmerged.mono fun n o hn => ?_,
    hbase.mono hgrow, hpatch.mono hgrow⟩
  unfold readSince at hn
  split_ifs at hn
  · exact hgrow n o hn
  · exact hn

theorem mergeDictAt_deepMerge_db : DeepMerge dbMemory 1 4
    [("db", .dict [("host", .prim "localhost"), ("port", .prim "5432")])]
    [("db", .dict [("port", .prim "5433")]), ("cache", .dict [("enabled", .prim "true")])] := by
  apply mergeDictAt_deepMerge
  · simp [Json.UniqueKeys, Json.foldEntries, Json.fold]
  · simp [Json.UniqueKeys, Json.foldEntries, Json.fold]
  · refine stored_dict_iff.mpr ⟨1, _, rfl, rfl, .cons ⟨rfl, ?_⟩ .nil⟩
    exact stored_dict_iff.mpr ⟨0, _, rfl, rfl, .cons ⟨rfl, rfl⟩ (.cons ⟨rfl, rfl⟩ .nil)⟩
  · refine stored_dict_iff.mpr ⟨4, _, rfl, rfl, .cons ⟨rfl, ?_⟩ (.cons ⟨rfl, ?_⟩ .nil)⟩
    · exact stored_dict_iff.mpr ⟨2, _, rfl, rfl, .cons ⟨rfl, rfl⟩ .nil⟩
    · exact stored_dict_iff.mpr ⟨3, _, rfl, rfl, .cons ⟨rfl, rfl⟩ .nil⟩

end OmnibaseCore.Merge
