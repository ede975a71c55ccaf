import OmnibaseCore.Geometric.ClassifierTheorems
import OmnibaseCore.Python.Dict

/-!
# Merging orthogonal outputs

The classification looks at the keys that an agent changed, the recommendation at all the keys of
its dictionary. A key that the base holds is either in the dictionaries of two agents, or missing
from one that counts as having changed it; so an orthogonal classification is merged only if
the base holds nothing (`mergesAll_iff`).
-/

namespace OmnibaseCore.Geometric

variable {i : ClassifierInterpreter} {base : Entries} {values : List (String × AgentValue)}
  {details : ModelGeometricConflictDetails}

/-! ## Pairs -/

theorem forall_mem_agentPairs_iff {α : Type} {R : α → α → Prop} {l : List α} :
    (∀ p ∈ agentPairs l, R p.1 p.2) ↔ l.Pairwise R := by
  induction l with
  | nil => exact iff_of_true (fun _ h => nomatch h) List.Pairwise.nil
  | cons a l ih =>
    rw [agentPairs, List.forall_mem_append, ih, List.forall_mem_map, List.pairwise_cons]

theorem length_dictValues_le (values : List (String × AgentValue)) :
    (dictValues values).length ≤ values.length :=
  List.length_filterMap_le _ values

theorem map_snd_of_length_eq (h : (dictValues values).length = values.length) :
    values.map Prod.snd = (dictValues values).map .dict := by
  induction values with
  | nil => rfl
  | cons e values ih =>
    rcases e with ⟨agent, v⟩
    have hle := length_dictValues_le values
    cases v with
    | dict entries =>
      have hcons : dictValues ((agent, .dict entries) :: values) = entries :: dictValues values :=
        rfl
      rw [hcons, List.length_cons, List.length_cons] at h
      rw [hcons, List.map_cons, List.map_cons, ih (Nat.succ.inj h)]
    | _ =>
      replace h : (dictValues values).length = values.length + 1 := h
      omega

/-! ## The two notions of overlap -/

def DisjointKeys (values : List (String × AgentValue)) : Prop :=
  (dictValues values).Pairwise fun a b => ∀ k ∈ a.keys, k ∉ b.keys

theorem keys_of_length_eq (h : (dictValues values).length = values.length) :
    (values.map fun e => match e.2 with | .dict entries => Entries.keys entries | _ => [])
      = (dictValues values).map Entries.keys := by
  have hsnd := congrArg (List.map fun v : AgentValue => match v with
    | .dict entries => Entries.keys entries
    | _ => []) (map_snd_of_length_eq h)
  rw [List.map_map, List.map_map] at hsnd
  exact hsnd

theorem overlapError_eq_none_iff (h : (dictValues values).length = values.length) :
    overlapError i values = none ↔ DisjointKeys values := by
  have hpairwise : DisjointKeys values ↔ ((dictValues values).map Entries.keys).Pairwise
      fun a b => ∀ k ∈ a, k ∉ b := by
    rw [List.pairwise_map]
    rfl
  have hany : ∀ a b : List String, ¬ (a.any (· ∈ b)) = true ↔ ∀ k ∈ a, k ∉ b := by
    intro a b
    simp only [List.any_eq_true, decide_eq_true_eq, not_exists, not_and]
  unfold overlapError
  dsimp only
  rw [hpairwise, ← keys_of_length_eq h, Option.map_eq_none_iff, List.find?_eq_none,
    forall_mem_agentPairs_iff (R := fun a b : String × List String =>
      ¬ (a.2.any (· ∈ b.2)) = true), List.pairwise_map, List.pairwise_map]
  exact List.Pairwise.iff fun a b => hany _ _

theorem of_areOrthogonal (h : areOrthogonal i (.dict base) values = true) :
    (dictValues values).length = values.length ∧
      (dictValues values).Pairwise fun a b =>
        ∀ k ∈ changedKeys i base a, k ∉ changedKeys i base b := by
  unfold areOrthogonal at h
  dsimp only at h
  split_ifs at h with hlength hnone
  refine ⟨not_not.mp hlength, ?_⟩
  rw [List.all_eq_true] at h
  have hpairs := (forall_mem_agentPairs_iff (R := fun a b : List String =>
    (a.all (· ∉ b)) = true)).mp h
  rw [List.pairwise_map] at hpairs
  exact hpairs.imp fun hall k hk => by simpa using List.all_eq_true.mp hall k hk

theorem orthogonal_of_conflictType {contradictory orthogonal : Bool} {avgSimilarity : ℚ}
    (h : conflictTypeOf contradictory orthogonal avgSimilarity = .orthogonal) :
    orthogonal = true := by
  unfold conflictTypeOf at h
  split_ifs at h with h₁ h₂ h₃
  exact h₃

theorem recommendResolution_orthogonal (htype : details.conflictType = .orthogonal)
    (hlength : (dictValues values).length = values.length) :
    recommendResolution i details values =
      match overlapError i values with
      | some e => .error e
      | none => .ok (.dict ((dictValues values).foldl updateEntries []),
          "Merged non-overlapping changes from all agents") := by
  unfold recommendResolution
  rw [htype, if_neg (by decide)]
  exact if_pos hlength

/-! ## The merge -/

section
variable (hkeys : ∀ value ∈ dictValues values, value.keys.Nodup) (hdisjoint : DisjointKeys values)
include hkeys hdisjoint

theorem get_merged_of_mem {value : Entries} (hvalue : value ∈ dictValues values) {k : String}
    (hk : k ∈ value.keys) :
    Entries.get ((dictValues values).foldl updateEntries []) k = value.get k := by
  have hlookup := Dict.lookup_foldl_update_of_mem (d := []) hkeys hdisjoint hvalue hk
  exact congrArg (·.getD .none) hlookup

omit hdisjoint in
theorem get_merged_of_notMem {k : String} (hk : ∀ value ∈ dictValues values, k ∉ value.keys) :
    Entries.get ((dictValues values).foldl updateEntries []) k = .none := by
  have hlookup := Dict.lookup_foldl_update_of_notMem (d := []) hkeys hk
  exact congrArg (·.getD .none) hlookup

end

variable {k : String}

theorem get_of_notMem {entries : Entries} (hk : k ∉ entries.keys) : entries.get k = .none := by
  unfold Entries.get
  rw [Dict.lookup_eq_none_iff.mpr hk]
  rfl

theorem mem_changedKeys_iff {value : Entries} : k ∈ changedKeys i base value ↔
      (k ∈ base.keys ∨ k ∈ value.keys) ∧ (base.get k).eq i (value.get k) = false := by
  unfold changedKeys allKeys
  rw [List.mem_filter, List.mem_append, List.mem_filter, Bool.not_eq_true']
  by_cases hk : k ∈ base.keys
  · simp [hk]
  · simp [hk]

/-- The recommendation is a dictionary with every change of every agent, and with the value of
the base at every other key of the base. -/
def MergesAll (i : ClassifierInterpreter) (base : Entries) (values : List (String × AgentValue))
    (details : ModelGeometricConflictDetails) : Prop :=
  ∃ merged explanation, recommendResolution i details values = .ok (.dict merged, explanation) ∧
    (∀ value ∈ dictValues values, ∀ k ∈ changedKeys i base value,
      Entries.get merged k = value.get k) ∧
    ∀ k ∈ base.keys, (∀ value ∈ dictValues values, k ∉ changedKeys i base value) →
      (base.get k).eq i (Entries.get merged k) = true

theorem exists_agents_of_disjoint {a b : Entries} (hk : k ∈ base.keys)
    (hnone : (base.get k).eq i .none = false) (hdisjoint : ∀ k ∈ a.keys, k ∉ b.keys)
    (hchanged : ∀ k ∈ changedKeys i base a, k ∉ changedKeys i base b) :
    (k ∈ a.keys ∧ k ∉ changedKeys i base a ∧ k ∈ changedKeys i base b ∧ b.get k = .none) ∨
      (k ∈ b.keys ∧ k ∉ changedKeys i base b ∧ k ∈ changedKeys i base a ∧ a.get k = .none) := by
  have hmissing : ∀ {value : Entries}, k ∉ value.keys →
      k ∈ changedKeys i base value ∧ value.get k = .none := by
    intro value hmem
    have hget := get_of_notMem hmem
    refine ⟨mem_changedKeys_iff.mpr ⟨Or.inl hk, ?_⟩, hget⟩
    rw [hget]
    exact hnone
  by_cases ha : k ∈ a.keys
  · have hb := hmissing (hdisjoint k ha)
    exact Or.inl ⟨ha, fun hk => hchanged k hk hb.1, hb.1, hb.2⟩
  · have hmem := hmissing ha
    refine Or.inr ⟨?_, hchanged k hmem.1, hmem.1, hmem.2⟩
    by_contra hb
    exact hchanged k hmem.1 (hmissing hb).1

/-- An orthogonal classification is merged exactly when no key is in the outputs of two agents and
the base holds no value but `None`. -/
theorem mergesAll_iff (hkeys : ∀ value ∈ dictValues values, value.keys.Nodup)
    (h : classify i (.dict base) values = .ok details)
    (htype : details.conflictType = .orthogonal) :
    MergesAll i base values details ↔
      DisjointKeys values ∧ ∀ k ∈ base.keys, (base.get k).eq i .none = true := by
  rcases classify_ok h with ⟨htwo, similarities, -, hcascade⟩
  rw [htype] at hcascade
  rcases of_areOrthogonal (orthogonal_of_conflictType hcascade.symm) with ⟨hlength, hchanged⟩
  have hrecommend := recommendResolution_orthogonal (i := i) htype hlength
  constructor
  · rintro ⟨merged, explanation, hmerged, hchanges, -⟩
    rw [hrecommend] at hmerged
    cases herror : overlapError i values with
    | some e =>
      rw [herror] at hmerged
      exact nomatch hmerged
    | none =>
      rw [herror] at hmerged
      have hdisjoint := (overlapError_eq_none_iff hlength).mp herror
      have hentries : (dictValues values).foldl updateEntries [] = merged := by
        have hpair := Except.ok.inj hmerged
        rw [Prod.mk.injEq, AgentValue.dict.injEq] at hpair
        exact hpair.1
      refine ⟨hdisjoint, fun k hk => ?_⟩
      by_contra hvalue
      rw [Bool.not_eq_true] at hvalue
      -- the first two agents: one keeps the key, and the other counts as having changed it
      rw [← hlength] at htwo
      have hpair : ∃ a b rest, dictValues values = a :: b :: rest := by
        match dictValues values, htwo with
        | a :: b :: rest, _ => exact ⟨a, b, rest, rfl⟩
      rcases hpair with ⟨a, b, rest, hdicts⟩
      have hdisjoint' := hdisjoint
      unfold DisjointKeys at hdisjoint'
      rw [hdicts, List.pairwise_cons] at hdisjoint' hchanged
      have hkept : ∀ {u v : Entries}, u ∈ dictValues values → v ∈ dictValues values →
          k ∈ u.keys → k ∉ changedKeys i base u → k ∈ changedKeys i base v →
          v.get k = .none → False := by
        intro u v hu hv hku hsame hother hnone
        have hget := get_merged_of_mem hkeys hdisjoint hu hku
        rw [hentries, hchanges v hv k hother, hnone] at hget
        apply hsame
        rw [mem_changedKeys_iff, ← hget]
        exact ⟨Or.inl hk, hvalue⟩
      have ha : a ∈ dictValues values := by
        rw [hdicts]
        exact List.mem_cons_self
      have hb : b ∈ dictValues values := by
        rw [hdicts]
        exact List.mem_cons_of_mem a List.mem_cons_self
      rcases exists_agents_of_disjoint hk hvalue (hdisjoint'.1 b List.mem_cons_self)
        (hchanged.1 b List.mem_cons_self) with
        ⟨hku, hsame, hother, hnone⟩ | ⟨hku, hsame, hother, hnone⟩
      · exact hkept ha hb hku hsame hother hnone
      · exact hkept hb ha hku hsame hother hnone
  · rintro ⟨hdisjoint, hbase⟩
    rw [(overlapError_eq_none_iff hlength).mpr hdisjoint] at hrecommend
    refine ⟨_, _, hrecommend, fun value hvalue k hk => ?_, fun k hk hsame => ?_⟩
    · rw [mem_changedKeys_iff] at hk
      by_cases hmem : k ∈ value.keys
      · exact get_merged_of_mem hkeys hdisjoint hvalue hmem
      · rw [get_of_notMem hmem] at hk
        rw [hbase k (hk.1.resolve_right hmem)] at hk
        exact nomatch hk.2
    · by_cases hsome : ∃ value ∈ dictValues values, k ∈ value.keys
      · rcases hsome with ⟨value, hvalue, hmem⟩
        rw [get_merged_of_mem hkeys hdisjoint hvalue hmem]
        have hnot := hsame value hvalue
        rw [mem_changedKeys_iff, not_and] at hnot
        simpa using hnot (Or.inl hk)
      · push Not at hsome
        rw [get_merged_of_notMem hkeys hsome]
        exact hbase k hk

/-- Two agents that add a field each to an empty record. -/
def additions : List (String × AgentValue) :=
  [("planner", .dict [("plan", .str "draft")]), ("reviewer", .dict [("review", .str "pending")])]

theorem mergesAll_iff_additions :
    ∃ details, classify asciiClassifier (.dict []) additions = .ok details ∧
      (MergesAll asciiClassifier [] additions details ↔
        DisjointKeys additions ∧ ∀ k ∈ Entries.keys [],
          (Entries.get [] k).eq asciiClassifier .none = true) := by
  have htype : (classify asciiClassifier (.dict []) additions).map (·.conflictType)
      = .ok .orthogonal := by
    decide +kernel
  rcases map_eq_ok htype with ⟨details, hclassify, htype⟩
  exact ⟨details, hclassify, mergesAll_iff (by decide +kernel) hclassify htype⟩

/-- A record, and two agents that change a field each of it. -/
def profile (name : String) (age : ℤ) : Entries :=
  [("name", .str name), ("age", .int age), ("city", .str "none")]

def edits : List (String × AgentValue) :=
  [("agent-1", .dict (profile "alice" 0)), ("agent-2", .dict (profile "original" 30))]

/-- The outputs are whole records, so that they share their keys. -/
theorem edits_not_mergesAll :
    ∃ details, classify asciiClassifier (.dict (profile "original" 0)) edits = .ok details ∧
      details.conflictType = .orthogonal ∧
        ¬ MergesAll asciiClassifier (profile "original" 0) edits details := by
  have htype : (classify asciiClassifier (.dict (profile "original" 0)) edits).map
      (·.conflictType) = .ok .orthogonal := by
    decide +kernel
  rcases map_eq_ok htype with ⟨details, hclassify, htype⟩
  refine ⟨details, hclassify, htype, ?_⟩
  rintro ⟨merged, explanation, hmerged, -⟩
  rw [recommendResolution_orthogonal htype (by decide)] at hmerged
  cases herror : overlapError asciiClassifier edits with
  | some e =>
    rw [herror] at hmerged
    exact nomatch hmerged
  | none =>
    have hdisjoint := (overlapError_eq_none_iff (by decide)).mp herror
    have hname := (List.pairwise_cons.mp hdisjoint).1 (profile "original" 30) List.mem_cons_self
      "name" List.mem_cons_self
    exact hname List.mem_cons_self

end OmnibaseCore.Geometric
