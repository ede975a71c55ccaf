import OmnibaseCore.Receipts.Contract

/-!
# The append-only gate

`evaluate_append_only`: the contract at the merge base against the one at the head of a pull
request, and the list of receipt files that the pull request changes.
-/

namespace OmnibaseCore.Receipts

inductive EnumAppendOnlyViolationKind
  | entryEdited
  | entryRemoved
  | receiptFileMutated

structure ModelAppendOnlyViolation where
  kind : EnumAppendOnlyViolationKind
  target : String
  detail : String := ""

structure ModelOccAppendOnlyResult where
  ok : Bool
  reason : String := ""
  violations : List ModelAppendOnlyViolation := []
  detail : String := ""

def entryIds (contract : Value) : List String := (idItems contract).map Prod.fst

namespace GateInterpreter

variable (i : GateInterpreter)

def entryViolations (base head : Value) :
    List String → Except PyException (List ModelAppendOnlyViolation)
  | [] => .ok []
  | id :: ids =>
    if id ∉ entryIds head then do
      let violations ← entryViolations base head ids
      return { kind := .entryRemoved, target := id
               detail := "dod_evidence item " ++ i.repr id ++ " present at base was " ++
                 "removed at head; removals are forbidden (append-only)." } :: violations
    else
      let hashes := do
        let baseHash ← i.computeContractEntrySha256 base id
        let headHash ← i.computeContractEntrySha256 head id
        return (baseHash, headHash)
      match hashes with
      | .error (.contractEntryNotFoundError _) => entryViolations base head ids
      | .error (.raised e) => .error e
      | .ok (baseHash, headHash) => do
        let violations ← entryViolations base head ids
        if baseHash = headHash then return violations
        return { kind := .entryEdited, target := id
                 detail := "dod_evidence item " ++ i.repr id ++ " was edited " ++
                   "(entry hash " ++ baseHash ++ " -> " ++ headHash ++ "); existing " ++
                   "entries are immutable. Append a new item or file a " ++
                   "supersession record instead." } :: violations

/-- The status of a changed file, one letter. -/
def statusCode (status : String) : String :=
  if strip status ≠ "" then String.ofList ((i.upper (strip status)).toList.take 1) else ""

def receiptViolations (receiptDiff : List (String × String)) : List ModelAppendOnlyViolation :=
  receiptDiff.filterMap fun change =>
    let code := i.statusCode change.1
    if code ∈ ["M", "D", "R", "C"] then
      some { kind := .receiptFileMutated, target := change.2
             detail := "receipt file " ++ i.repr change.2 ++ " was " ++ i.repr code ++
               " (modified/deleted/" ++ "renamed); merged receipts are immutable. " ++
               "Corrections must be net-new '.supersede.<NNNN>.yaml' add-only files." }
    else none

def contractViolations (baseContract headContract : Option Mapping) :
    Except PyException (List ModelAppendOnlyViolation) :=
  match baseContract with
  | none => .ok []
  | some base =>
    i.entryViolations (.dict base) (.dict (headContract.getD [])) (entryIds (.dict base))

def appendOnlyResult (violations : List ModelAppendOnlyViolation) : ModelOccAppendOnlyResult :=
  if violations ≠ [] then
    { ok := false, reason := "APPEND_ONLY_VIOLATION", violations
      detail := toString violations.length ++ " append-only violation(s) detected." }
  else
    { ok := true
      detail := "No append-only violations: existing entries and receipts unchanged." }

def evaluateAppendOnly (baseContract headContract : Option Mapping)
    (receiptDiff : List (String × String)) : Except PyException ModelOccAppendOnlyResult := do
  let entries ← i.contractViolations baseContract headContract
  return appendOnlyResult (entries ++ i.receiptViolations receiptDiff)

end GateInterpreter

/-!
## What the append-only gate protects

* `accepted_iff`: a head is accepted if no receipt file is changed and, for every `id` of the
  base, the first items with this `id` have the same hash on both sides;
* `accepted_of_chain`: acceptance composes over a chain of merges;
* `gateLaw_iff`: a contract is judged rightly, against every head and against every base, if and
  only if its `id`s are distinct and its entries have a canonical JSON.
-/

variable {i : GateInterpreter}

/-! ## Items and their ids -/

theorem findEntry_eq (contract : Value) (id : String) :
    GateInterpreter.findEntry contract id
      = ((idItems contract).find? (·.1 = id)).map Prod.snd := by
  unfold GateInterpreter.findEntry idItems
  induction dodItems contract with
  | nil => rfl
  | cons item rest ih =>
    have hskip : (∀ s, item.get "id" ≠ some (.str s)) →
        (item.get "id").bind asText = none ∧
          ((item.get "id").map (isText id)).getD false = false := by
      intro hnot
      cases hget : item.get "id" with
      | none => exact ⟨rfl, rfl⟩
      | some v =>
        cases v with
        | str s => exact absurd hget (hnot s)
        | _ => exact ⟨rfl, rfl⟩
    by_cases hid : ∃ s, item.get "id" = some (.str s)
    · obtain ⟨s, hs⟩ := hid
      rw [List.find?_cons, List.filterMap_cons]
      simp only [hs, Option.bind_some, asText, Option.map_some, isText, Option.getD_some]
      by_cases hsame : s = id
      · simp [hsame]
      · simpa [hsame] using ih
    · obtain ⟨hbind, hmap⟩ := hskip fun s hs => hid ⟨s, hs⟩
      rw [List.find?_cons, List.filterMap_cons, hbind, hmap]
      exact ih

variable {contract : Value}

theorem exists_findEntry_iff {id : String} :
    (∃ entry, GateInterpreter.findEntry contract id = some entry) ↔ id ∈ entryIds contract := by
  rw [findEntry_eq]
  unfold entryIds
  constructor
  · intro ⟨entry, h⟩
    obtain ⟨item, hfind, -⟩ := Option.map_eq_some_iff.mp h
    have hid : item.1 = id := by simpa using List.find?_some hfind
    exact List.mem_map.mpr ⟨item, List.mem_of_find?_eq_some hfind, hid⟩
  · intro h
    obtain ⟨item, hmem, hid⟩ := List.mem_map.mp h
    have hfind : ((idItems contract).find? (·.1 = id)).isSome :=
      List.find?_isSome.mpr ⟨item, hmem, by simpa using hid⟩
    obtain ⟨found, hfound⟩ := Option.isSome_iff_exists.mp hfind
    exact ⟨found.2, by rw [hfound]; rfl⟩

/-- The entry of `id` has the canonical JSON `t`. -/
def HasText (i : GateInterpreter) (contract : Value) (id t : String) : Prop :=
  ∃ entry, GateInterpreter.findEntry contract id = some entry ∧ i.entryText contract entry = .ok t

/-- The entries of `id` on both sides have the same canonical JSON. -/
def SameText (i : GateInterpreter) (base head : Value) (id : String) : Prop :=
  ∃ t, HasText i base id t ∧ HasText i head id t

theorem HasText.mem {id t : String} (h : HasText i contract id t) : id ∈ entryIds contract :=
  exists_findEntry_iff.mp ⟨_, h.choose_spec.1⟩

theorem HasText.unique {id t t' : String} (h : HasText i contract id t)
    (h' : HasText i contract id t') : t = t' := by
  obtain ⟨entry, hentry, ht⟩ := h
  obtain ⟨entry', hentry', ht'⟩ := h'
  obtain rfl : entry = entry' := Option.some.inj (hentry.symm.trans hentry')
  exact Except.ok.inj (ht.symm.trans ht')

/-! ## Acceptance -/

def Accepted (i : GateInterpreter) (base head : Option Mapping)
    (receiptDiff : List (String × String)) : Prop :=
  ∃ result, i.evaluateAppendOnly base head receiptDiff = .ok result ∧ result.ok = true

/-- No receipt file is modified, deleted, renamed or copied. -/
def NoneMutated (i : GateInterpreter) (receiptDiff : List (String × String)) : Prop :=
  ∀ change ∈ receiptDiff, i.statusCode change.1 ∉ ["M", "D", "R", "C"]

variable {receiptDiff : List (String × String)}

theorem receiptViolations_eq_nil_iff :
    i.receiptViolations receiptDiff = [] ↔ NoneMutated i receiptDiff := by
  unfold GateInterpreter.receiptViolations NoneMutated
  rw [List.filterMap_eq_nil_iff]
  apply forall₂_congr
  intro change _
  dsimp only
  split_ifs with hcode <;> simp [hcode]

section
variable (hsha : Function.Injective i.sha256)
include hsha

theorem entryViolations_eq_nil_iff {base head : Value} {ids : List String}
    (hids : ∀ id ∈ ids, id ∈ entryIds base) :
    i.entryViolations base head ids = .ok [] ↔ ∀ id ∈ ids, SameText i base head id := by
  induction ids with
  | nil => simp [GateInterpreter.entryViolations]
  | cons id ids ih =>
    rw [List.forall_mem_cons] at hids ⊢
    rw [← ih hids.2, GateInterpreter.entryViolations]
    by_cases hmem : id ∈ entryIds head
    · rw [if_neg (not_not.mpr hmem)]
      obtain ⟨entry, hentry⟩ := exists_findEntry_iff.mpr hids.1
      obtain ⟨entry', hentry'⟩ := exists_findEntry_iff.mpr hmem
      unfold SameText HasText GateInterpreter.computeContractEntrySha256
      simp only [hentry, hentry', Option.some.injEq, exists_eq_left']
      cases i.entryText base entry with
      | error e => simp [bind, Except.bind]
      | ok t =>
        cases i.entryText head entry' with
        | error e => simp [bind, Except.bind]
        | ok t' =>
          have hhash : "sha256:" ++ i.sha256 t = "sha256:" ++ i.sha256 t' ↔ t = t' := by
            rw [String.append_right_inj, hsha.eq_iff]
          simp only [bind, Except.bind, pure, Except.pure, hhash]
          by_cases ht : t = t'
          · cases i.entryViolations base head ids <;> simp [ht]
          · cases i.entryViolations base head ids <;> simp [ht, Ne.symm ht]
    · rw [if_pos hmem]
      constructor
      · intro h
        obtain ⟨violations, -, h⟩ := bind_eq_ok h
        cases h
      · intro ⟨⟨t, _, ht⟩, _⟩
        exact absurd ht.mem hmem

/-- A pull request is accepted if no receipt is mutated and no entry changes its text. -/
theorem accepted_iff {base head : Option Mapping} :
    Accepted i base head receiptDiff ↔ NoneMutated i receiptDiff ∧
      ∀ b, base = some b → ∀ id ∈ entryIds (.dict b),
        SameText i (.dict b) (.dict (head.getD [])) id := by
  have hresult : ∀ violations,
      (GateInterpreter.appendOnlyResult violations).ok = true ↔ violations = [] := by
    intro violations
    unfold GateInterpreter.appendOnlyResult
    split_ifs with hnil <;> simp_all
  have hentries : Accepted i base head receiptDiff ↔
      i.contractViolations base head = .ok [] ∧ i.receiptViolations receiptDiff = [] := by
    unfold Accepted GateInterpreter.evaluateAppendOnly
    constructor
    · intro ⟨result, h, hok⟩
      obtain ⟨entries, hentries, h⟩ := bind_eq_ok h
      cases h
      obtain ⟨hnil, hreceipts⟩ := List.append_eq_nil_iff.mp ((hresult _).mp hok)
      rw [hentries, hnil]
      exact ⟨rfl, hreceipts⟩
    · intro ⟨hentries, hreceipts⟩
      rw [hentries, hreceipts]
      exact ⟨_, rfl, (hresult _).mpr rfl⟩
  rw [hentries, receiptViolations_eq_nil_iff, and_comm]
  unfold GateInterpreter.contractViolations
  cases base with
  | none => simp
  | some b =>
    dsimp only
    rw [entryViolations_eq_nil_iff hsha fun _ h => h]
    simp

theorem Accepted.trans {a b c : Option Mapping} {d d' : List (String × String)}
    (h : Accepted i a b d) (h' : Accepted i b c d') : Accepted i a c (d ++ d') := by
  rw [accepted_iff hsha] at h h' ⊢
  refine ⟨fun change hchange => ?_, fun x hx id hid => ?_⟩
  · exact (List.mem_append.mp hchange).elim (h.1 change) (h'.1 change)
  · obtain ⟨t, ht, ht'⟩ := h.2 x hx id hid
    cases b with
    | none =>
      -- a contract that is gone has no entries
      have hnone : entryIds (.dict ((none : Option Mapping).getD [])) = [] := rfl
      exact absurd (hnone ▸ ht'.mem) List.not_mem_nil
    | some b =>
      obtain ⟨t', hb, hc⟩ := h'.2 b rfl id ht'.mem
      exact ⟨t, ht, ht'.unique hb ▸ hc⟩

def AcceptedChain (i : GateInterpreter) :
    Option Mapping → List (Option Mapping × List (String × String)) → Prop
  | _, [] => True
  | base, merge :: merges =>
    Accepted i base merge.1 merge.2 ∧ AcceptedChain i merge.1 merges

theorem accepted_of_chain {base : Option Mapping}
    {merges : List (Option Mapping × List (String × String))} (h : AcceptedChain i base merges)
    (hne : merges ≠ []) :
    Accepted i base (merges.getLast hne).1 (merges.flatMap Prod.snd) := by
  induction merges generalizing base with
  | nil => exact absurd rfl hne
  | cons merge rest ih =>
    cases rest with
    | nil =>
      rw [List.flatMap_singleton]
      exact h.1
    | cons next rest => exact h.1.trans hsha (ih h.2 (List.cons_ne_nil _ _))

end

/-! ## What the gate should protect -/

/-- The item `y` of the head is the item `x` of the base: it is the same with the same header, or
it has the same canonical JSON. -/
def Unchanged (i : GateInterpreter) (base head : Value) (x y : String × Mapping) : Prop :=
  x.1 = y.1 ∧ ((∃ t, i.entryText base x.2 = .ok t ∧ i.entryText head y.2 = .ok t) ∨
    (headerOf base = headerOf head ∧ x.2 = y.2))

/-- The items of the base with an `id` are still there, each unchanged. -/
def Preserved (i : GateInterpreter) (base head : Value) : Prop :=
  ∃ kept, List.Subperm kept (idItems head) ∧ List.Forall₂ (Unchanged i base head) (idItems base) kept

def Protects (i : GateInterpreter) (base head : Option Mapping)
    (receiptDiff : List (String × String)) : Prop :=
  NoneMutated i receiptDiff ∧
    ∀ b, base = some b → Preserved i (.dict b) (.dict (head.getD []))

/-- A contract is judged rightly: where it is the base, an accepted head keeps its items, and
where it is the head, it is accepted if it keeps the items of the base. -/
structure GateLaw (i : GateInterpreter) (contract : Mapping) : Prop where
  sound : ∀ head receiptDiff, Accepted i (some contract) head receiptDiff →
    Protects i (some contract) head receiptDiff
  complete : ∀ base receiptDiff, Protects i base (some contract) receiptDiff →
    Accepted i base (some contract) receiptDiff

theorem preserved_refl (contract : Value) : Preserved i contract contract :=
  ⟨idItems contract, List.Subperm.refl _,
    List.forall₂_same.mpr fun _ _ => ⟨rfl, Or.inr ⟨rfl, rfl⟩⟩⟩

theorem findEntry_of_mem (h : (entryIds contract).Nodup) {item : String × Mapping}
    (hitem : item ∈ idItems contract) :
    GateInterpreter.findEntry contract item.1 = some item.2 := by
  rw [findEntry_eq]
  cases hfind : (idItems contract).find? (·.1 = item.1) with
  | none =>
    have hnot := List.find?_eq_none.mp hfind item hitem
    simp at hnot
  | some found =>
    have hid : found.1 = item.1 := by simpa using List.find?_some hfind
    have hsame : found = item :=
      List.inj_on_of_nodup_map h (List.mem_of_find?_eq_some hfind) hitem hid
    rw [hsame]
    rfl

theorem exists_repeat {α β : Type} {f : α → β} {l : List α} (h : ¬ (l.map f).Nodup) :
    ∃ before a after, l = before ++ a :: after ∧ f a ∈ before.map f := by
  induction l with
  | nil => exact absurd List.nodup_nil h
  | cons b rest ih =>
    by_cases hb : f b ∈ rest.map f
    · obtain ⟨a, ha, hab⟩ := List.mem_map.mp hb
      obtain ⟨before, after, rfl⟩ := List.append_of_mem ha
      exact ⟨b :: before, a, after, rfl, by simp [hab]⟩
    · have hrest : ¬ (rest.map f).Nodup := fun hnodup =>
        h (List.nodup_cons.mpr ⟨hb, hnodup⟩)
      obtain ⟨before, a, after, rfl, ha⟩ := ih hrest
      exact ⟨b :: before, a, after, rfl, List.mem_cons_of_mem _ ha⟩

def withItems (contract : Value) (items : List (String × Mapping)) : Mapping :=
  [(.str "dod_evidence", .list (items.map fun item => .dict item.2)),
    (.str "ticket_id", ((asMapping contract).bind (·.get "ticket_id")).getD .none),
    (.str "schema_version", ((asMapping contract).bind (·.get "schema_version")).getD .none)]

theorem idItems_withItems (contract : Value) {items : List (String × Mapping)}
    (h : ∀ item ∈ items, item ∈ idItems contract) :
    idItems (.dict (withItems contract items)) = items := by
  have hid : ∀ item ∈ items, (item.2.get "id").bind asText = some item.1 := by
    intro item hitem
    obtain ⟨entry, -, hentry⟩ := List.mem_filterMap.mp (h item hitem)
    obtain ⟨id, hget, rfl⟩ := Option.map_eq_some_iff.mp hentry
    exact hget
  have hitems : dodItems (.dict (withItems contract items)) = items.map Prod.snd := by
    show (items.map fun item => Value.dict item.2).filterMap asMapping = _
    rw [List.filterMap_map]
    simp [Function.comp_def, asMapping]
  unfold idItems
  rw [hitems, List.filterMap_map]
  conv_rhs => rw [← List.filterMap_some (l := items)]
  refine List.filterMap_congr fun item hitem => ?_
  show ((item.2.get "id").bind asText).map _ = some item
  rw [hid item hitem]
  rfl

theorem not_protects_of_repeat {contract : Mapping}
    (htext : ∀ id ∈ entryIds (.dict contract), ∃ t, HasText i (.dict contract) id t)
    (hrepeat : ¬ (entryIds (.dict contract)).Nodup) :
    ∃ head, (∀ id ∈ entryIds (.dict contract), SameText i (.dict contract) (.dict head) id) ∧
      ¬ Preserved i (.dict contract) (.dict head) := by
  obtain ⟨before, item, after, hsplit, hitem⟩ := exists_repeat hrepeat
  have hitems : idItems (.dict (withItems (.dict contract) (before ++ after))) = before ++ after := by
    apply idItems_withItems
    intro kept hkept
    rw [hsplit]
    exact (List.mem_append.mp hkept).elim (List.mem_append_left _) fun h =>
      List.mem_append_right _ (List.mem_cons_of_mem _ h)
  refine ⟨withItems (.dict contract) (before ++ after), fun id hid => ?_, fun hpreserved => ?_⟩
  · obtain ⟨t, entry, hentry, ht⟩ := htext id hid
    refine ⟨t, ⟨entry, hentry, ht⟩, entry, ?_, ht⟩
    -- the first item with this `id` is not the one that was dropped
    rw [← hentry, findEntry_eq, findEntry_eq, hitems, hsplit, List.find?_append,
      List.find?_append]
    by_cases hid : item.1 = id
    · have hfound : (before.find? (·.1 = id)).isSome := by
        obtain ⟨first, hfirst, hsame⟩ := List.mem_map.mp hitem
        exact List.find?_isSome.mpr ⟨first, hfirst, by simpa using hsame.trans hid⟩
      obtain ⟨first, hfirst⟩ := Option.isSome_iff_exists.mp hfound
      rw [hfirst]
      rfl
    · rw [List.find?_cons_of_neg (by simpa using hid)]
  · obtain ⟨kept, hsub, hkept⟩ := hpreserved
    have hlength := hkept.length_eq
    have hle := hsub.length_le
    rw [hitems] at hle
    rw [hsplit] at hlength
    simp only [List.length_append, List.length_cons] at hlength hle
    omega

theorem mem_idItems_of_findEntry {id : String} {entry : Mapping}
    (h : GateInterpreter.findEntry contract id = some entry) : (id, entry) ∈ idItems contract := by
  rw [findEntry_eq] at h
  obtain ⟨found, hfound, rfl⟩ := Option.map_eq_some_iff.mp h
  obtain rfl : found.1 = id := by simpa using List.find?_some hfound
  exact List.mem_of_find?_eq_some hfound

theorem preserved_of_sameText {base head : Value} (hnodup : (entryIds base).Nodup)
    (h : ∀ id ∈ entryIds base, SameText i base head id) : Preserved i base head := by
  have hkeeps : ∀ item ∈ idItems base, ∃ entry, GateInterpreter.findEntry head item.1 = some entry ∧
      Unchanged i base head item (item.1, entry) := by
    intro item hitem
    obtain ⟨t, ⟨entry, hentry, ht⟩, entry', hentry', ht'⟩ := h item.1 (List.mem_map_of_mem hitem)
    rw [findEntry_of_mem hnodup hitem] at hentry
    obtain rfl := Option.some.inj hentry
    exact ⟨entry', hentry', rfl, Or.inl ⟨t, ht, ht'⟩⟩
  let kept := (idItems base).map fun item =>
    (item.1, (GateInterpreter.findEntry head item.1).getD [])
  have hfst : kept.map Prod.fst = entryIds base := by
    simp [kept, entryIds]
  refine ⟨kept, List.subperm_of_subset (List.Nodup.of_map Prod.fst (hfst ▸ hnodup)) ?_, ?_⟩
  · intro item hitem
    obtain ⟨old, hold, rfl⟩ := List.mem_map.mp hitem
    obtain ⟨entry, hentry, -⟩ := hkeeps old hold
    rw [hentry]
    exact mem_idItems_of_findEntry hentry
  · rw [List.forall₂_map_right_iff, List.forall₂_same]
    intro item hitem
    obtain ⟨entry, hentry, hunchanged⟩ := hkeeps item hitem
    rw [hentry]
    exact hunchanged

theorem exists_of_forall₂ {α β : Type} {R : α → β → Prop} {l : List α} {l' : List β}
    (h : List.Forall₂ R l l') {a : α} (ha : a ∈ l) : ∃ b ∈ l', R a b := by
  induction h with
  | nil => exact absurd ha List.not_mem_nil
  | cons hab _ ih =>
    rcases List.mem_cons.mp ha with rfl | ha
    · exact ⟨_, List.mem_cons_self, hab⟩
    · obtain ⟨b, hb, hR⟩ := ih ha
      exact ⟨b, List.mem_cons_of_mem _ hb, hR⟩

theorem sameText_of_preserved {base head : Value} (hnodup : (entryIds head).Nodup)
    (htext : ∀ item ∈ idItems head, ∃ t, i.entryText head item.2 = .ok t)
    (h : Preserved i base head) : ∀ id ∈ entryIds base, SameText i base head id := by
  intro id hid
  obtain ⟨entry, hentry⟩ := exists_findEntry_iff.mpr hid
  obtain ⟨kept, hsub, hkept⟩ := h
  obtain ⟨item, hitem, hsame, htexts⟩ := exists_of_forall₂ hkept (mem_idItems_of_findEntry hentry)
  have hitem := hsub.subset hitem
  obtain ⟨t, ht⟩ := htext item hitem
  have hhead : HasText i head id t := ⟨item.2, by
    have hfound := findEntry_of_mem hnodup hitem
    rwa [← hsame] at hfound, ht⟩
  refine ⟨t, ⟨entry, hentry, ?_⟩, hhead⟩
  rcases htexts with ⟨t', hbase, hhead'⟩ | ⟨hheader, hentries⟩
  · rw [hbase, ← hhead', ht]
  · rw [← ht]
    unfold GateInterpreter.entryText
    rw [hheader, show entry = item.2 from hentries]

/-- The `id`s tell the items apart, and every entry has a canonical JSON. -/
structure Identified (i : GateInterpreter) (contract : Mapping) : Prop where
  distinct : (entryIds (.dict contract)).Nodup
  printable : ∀ item ∈ idItems (.dict contract), ∃ t, i.entryText (.dict contract) item.2 = .ok t

/-- The gate protects a contract if and only if its ids are distinct and its entries printable. -/
theorem gateLaw_iff (hsha : Function.Injective i.sha256) {contract : Mapping} :
    GateLaw i contract ↔ Identified i contract := by
  constructor
  · intro hlaw
    have hself : ∀ id ∈ entryIds (.dict contract), ∃ t, HasText i (.dict contract) id t := by
      have haccepted := hlaw.complete (some contract) []
        ⟨fun _ h => (nomatch h), fun b hb => by
          obtain rfl := Option.some.inj hb
          exact preserved_refl _⟩
      intro id hid
      obtain ⟨t, ht, -⟩ := ((accepted_iff hsha).mp haccepted).2 contract rfl id hid
      exact ⟨t, ht⟩
    have hnodup : (entryIds (.dict contract)).Nodup := by
      by_contra hrepeat
      obtain ⟨head, hsame, hnot⟩ := not_protects_of_repeat hself hrepeat
      have haccepted : Accepted i (some contract) (some head) [] :=
        (accepted_iff hsha).mpr ⟨fun _ h => (nomatch h), fun b hb => by
          obtain rfl := Option.some.inj hb
          exact hsame⟩
      exact hnot ((hlaw.sound (some head) [] haccepted).2 contract rfl)
    refine ⟨hnodup, fun item hitem => ?_⟩
    obtain ⟨t, entry, hentry, ht⟩ := hself item.1 (List.mem_map_of_mem hitem)
    rw [findEntry_of_mem hnodup hitem] at hentry
    obtain rfl := Option.some.inj hentry
    exact ⟨t, ht⟩
  · intro ⟨hnodup, htext⟩
    constructor
    · intro head receiptDiff haccepted
      obtain ⟨hmutated, hsame⟩ := (accepted_iff hsha).mp haccepted
      refine ⟨hmutated, fun b hb => ?_⟩
      obtain rfl := Option.some.inj hb
      exact preserved_of_sameText hnodup (hsame contract rfl)
    · intro base receiptDiff hprotects
      refine (accepted_iff hsha).mpr ⟨hprotects.1, fun b hb id hid => ?_⟩
      exact sameText_of_preserved hnodup htext (hprotects.2 b hb) id hid

/-- Acceptance composes over every chain of merges, the contracts that are judged rightly are
those whose `id`s tell their items apart, and between two of these a head is accepted exactly if
it keeps what the base has. -/
theorem appendOnly_law (hsha : Function.Injective i.sha256) :
    (∀ (base : Option Mapping) (merges : List (Option Mapping × List (String × String)))
        (hne : merges ≠ []), AcceptedChain i base merges →
          Accepted i base (merges.getLast hne).1 (merges.flatMap Prod.snd)) ∧
      (∀ contract, GateLaw i contract ↔ Identified i contract) ∧
      ∀ base head receiptDiff, (∀ b, base = some b → Identified i b) → Identified i head →
        (Accepted i base (some head) receiptDiff ↔ Protects i base (some head) receiptDiff) := by
  refine ⟨fun base merges hne h => accepted_of_chain hsha h hne, fun _ => gateLaw_iff hsha,
    fun base head receiptDiff hbase hhead => ⟨fun haccepted => ?_, ?_⟩⟩
  · cases base with
    | none =>
      exact ⟨((accepted_iff hsha).mp haccepted).1, fun _ hb => (nomatch hb)⟩
    | some b => exact ((gateLaw_iff hsha).mpr (hbase b rfl)).sound _ _ haccepted
  · exact ((gateLaw_iff hsha).mpr hhead).complete _ _

/-! ## Examples -/

def plainGate : GateInterpreter :=
  { asciiText with
    upper := fun s => String.ofList (s.toList.map Char.toUpper)
    floatRepr := fun _ => "0.0"
    sha256 := id }

def notesContract (notes : List (String × String)) : Mapping :=
  [(.str "ticket_id", .str "OMN-1"), (.str "schema_version", .str "1.0.0"),
    (.str "dod_evidence", .list (notes.map fun note =>
      .dict [(.str "id", .str note.1), (.str "description", .str note.2)]))]

theorem appendOnly_law_notes :
    GateLaw plainGate (notesContract [("dod-1", "tests"), ("dod-2", "lint")]) :=
  ((appendOnly_law Function.injective_id).2.1 _).mpr
    ⟨by decide, fun item hitem => by
      have hitems : idItems (.dict (notesContract [("dod-1", "tests"), ("dod-2", "lint")]))
          = [("dod-1", [(.str "id", .str "dod-1"), (.str "description", .str "tests")]),
            ("dod-2", [(.str "id", .str "dod-2"), (.str "description", .str "lint")])] := rfl
      rw [hitems] at hitem
      rcases List.mem_cons.mp hitem with rfl | hitem
      · exact ⟨_, rfl⟩
      · rw [List.mem_singleton.mp hitem]
        exact ⟨_, rfl⟩⟩

/-- The second of two items with one `id` is removed, and the head is accepted. -/
theorem repeatedId_accepted :
    Accepted plainGate (some (notesContract [("dod-1", "tests"), ("dod-1", "lint")]))
        (some (notesContract [("dod-1", "tests")])) [] ∧
      ¬ Protects plainGate (some (notesContract [("dod-1", "tests"), ("dod-1", "lint")]))
        (some (notesContract [("dod-1", "tests")])) [] := by
  constructor
  · exact ⟨_, rfl, rfl⟩
  · intro h
    obtain ⟨kept, hsub, hkept⟩ := h.2 _ rfl
    have hle : kept.length ≤ 1 := hsub.length_le
    have hlength : 2 = kept.length := hkept.length_eq
    omega

end OmnibaseCore.Receipts
