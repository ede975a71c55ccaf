import OmnibaseCore.Python.Basic

/-!
# Loops that look for the first

A loop that goes on at an element whose key it has seen before. What it keeps is determined by two
facts: the keys of all elements that qualify, in the order of the first that does
(`FirstKeys.unique`).

A loop that writes down how each turn went, and returns out of the first turn that succeeds. A
turn may raise an error.
-/

namespace OmnibaseCore

section
variable {α κ : Type*} [DecidableEq κ] {key : α → κ} {p : α → Bool}

def firstOf (key : α → κ) (p : α → Bool) : Finset κ → List α → List α
  | _, [] => []
  | seen, a :: rest =>
    if key a ∉ seen ∧ p a then a :: firstOf key p (insert (key a) seen) rest
    else firstOf key p seen rest

def firstIndex (key : α → κ) (p : α → Bool) (l : List α) (k : κ) : ℕ :=
  l.findIdx fun a => p a && key a = k

/-- The keys of the elements that qualify, each once, in the order of the first that does. -/
structure FirstKeys (key : α → κ) (p : α → Bool) (l : List α) (keys : List κ) : Prop where
  mem_iff : ∀ k, k ∈ keys ↔ ∃ a ∈ l, p a = true ∧ key a = k
  ordered : keys.Pairwise fun j k => firstIndex key p l j < firstIndex key p l k

variable {l : List α}

theorem FirstKeys.nodup {keys : List κ} (h : FirstKeys key p l keys) : keys.Nodup :=
  h.ordered.imp fun hlt heq => by
    rw [heq] at hlt
    exact lt_irrefl _ hlt

/-- There is only one such list. -/
theorem FirstKeys.unique {keys keys' : List κ} (h : FirstKeys key p l keys)
    (h' : FirstKeys key p l keys') : keys = keys' := by
  have hperm : keys.Perm keys' :=
    (List.perm_ext_iff_of_nodup h.nodup h'.nodup).mpr fun k =>
      (h.mem_iff k).trans (h'.mem_iff k).symm
  exact hperm.eq_of_pairwise (fun _ _ _ _ hlt hgt => absurd hlt (lt_asymm hgt)) h.ordered h'.ordered

/-! ## What the loop keeps -/

theorem mem_keys_firstOf {seen : Finset κ} {k : κ} :
    k ∈ (firstOf key p seen l).map key ↔ k ∉ seen ∧ ∃ a ∈ l, p a = true ∧ key a = k := by
  induction l generalizing seen with
  | nil => simp [firstOf]
  | cons a rest ih =>
    rw [firstOf]
    split_ifs with hkeep
    · rw [List.map_cons, List.mem_cons, ih, Finset.mem_insert]
      constructor
      · rintro (rfl | ⟨hseen, b, hb, hqualifies⟩)
        · exact ⟨hkeep.1, a, List.mem_cons_self, hkeep.2, rfl⟩
        · exact ⟨fun h => hseen (Or.inr h), b, List.mem_cons_of_mem a hb, hqualifies⟩
      · rintro ⟨hseen, b, hb, hqualifies, rfl⟩
        by_cases hsame : key b = key a
        · exact Or.inl hsame
        · rcases List.mem_cons.mp hb with rfl | hb
          · exact absurd rfl hsame
          · exact Or.inr ⟨fun h => h.elim hsame hseen, b, hb, hqualifies, rfl⟩
    · rw [ih]
      refine and_congr_right fun hseen => ⟨?_, ?_⟩
      · rintro ⟨b, hb, hqualifies⟩
        exact ⟨b, List.mem_cons_of_mem a hb, hqualifies⟩
      · rintro ⟨b, hb, hqualifies, rfl⟩
        rcases List.mem_cons.mp hb with rfl | hb
        · exact absurd ⟨hseen, hqualifies⟩ hkeep
        · exact ⟨b, hb, hqualifies, rfl⟩

theorem firstIndex_cons_of_not {a : α} {rest : List α} {k : κ} (h : ¬ (p a = true ∧ key a = k)) :
    firstIndex key p (a :: rest) k = firstIndex key p rest k + 1 := by
  unfold firstIndex
  rw [List.findIdx_cons]
  have hnot : (p a && decide (key a = k)) = false := by
    simpa using h
  rw [hnot]
  rfl

theorem pairwise_firstOf {seen : Finset κ} : ((firstOf key p seen l).map key).Pairwise fun j k =>
      firstIndex key p l j < firstIndex key p l k := by
  induction l generalizing seen with
  | nil => exact List.Pairwise.nil
  | cons a rest ih =>
    rw [firstOf]
    split_ifs with hkeep
    · have hother : ∀ k ∈ (firstOf key p (insert (key a) seen) rest).map key, key a ≠ k := by
        intro k hk heq
        exact (mem_keys_firstOf.mp hk).1 (heq ▸ Finset.mem_insert_self _ _)
      have hbehind : ∀ k ∈ (firstOf key p (insert (key a) seen) rest).map key,
          firstIndex key p (a :: rest) k = firstIndex key p rest k + 1 := fun k hk =>
        firstIndex_cons_of_not fun h => hother k hk h.2
      rw [List.map_cons, List.pairwise_cons]
      constructor
      · intro k hk
        have hfirst : firstIndex key p (a :: rest) (key a) = 0 := by
          simp [firstIndex, List.findIdx_cons, hkeep.2]
        rw [hfirst, hbehind k hk]
        exact Nat.succ_pos _
      · refine ih.imp_of_mem fun hj hk hlt => ?_
        rw [hbehind _ hj, hbehind _ hk]
        omega
    · have hbehind : ∀ k ∈ (firstOf key p seen rest).map key,
          firstIndex key p (a :: rest) k = firstIndex key p rest k + 1 := by
        intro k hk
        apply firstIndex_cons_of_not
        rintro ⟨hqualifies, rfl⟩
        exact hkeep ⟨(mem_keys_firstOf.mp hk).1, hqualifies⟩
      refine ih.imp_of_mem fun hj hk hlt => ?_
      rw [hbehind _ hj, hbehind _ hk]
      omega

theorem firstKeys_firstOf (key : α → κ) (p : α → Bool) (l : List α) :
    FirstKeys key p l ((firstOf key p ∅ l).map key) where
  mem_iff k := by
    rw [mem_keys_firstOf]
    exact and_iff_right (Finset.notMem_empty k)
  ordered := pairwise_firstOf

end

/-! ## The first turn that stops -/

section
/-- How a turn ends: the loop goes on, or returns with a result. -/
inductive Turn (ρ β : Type)
  | next (record : ρ)
  | stop (record : ρ) (result : β)

variable {ε α ρ β : Type}

/-- The loop, from its `n`th turn on. It returns the records, and the result if a turn had
one. -/
def firstStop (turn : ℕ → α → Except ε (Turn ρ β)) :
    ℕ → List α → List ρ → Except ε (List ρ × Option β)
  | _, [], records => .ok (records, none)
  | n, a :: rest, records =>
    match turn n a with
    | .error e => .error e
    | .ok (.next record) => firstStop turn (n + 1) rest (records ++ [record])
    | .ok (.stop record result) => .ok (records ++ [record], some result)

/-- Turns from the `n`th on that all go on, with their records. -/
def GoesOn (turn : ℕ → α → Except ε (Turn ρ β)) : ℕ → List α → List ρ → Prop
  | _, [], records => records = []
  | n, a :: rest, records =>
    ∃ record records', records = record :: records' ∧ turn n a = .ok (.next record) ∧
      GoesOn turn (n + 1) rest records'

section
variable {turn : ℕ → α → Except ε (Turn ρ β)}

variable {n : ℕ}

@[simp] theorem goesOn_nil {records : List ρ} : GoesOn turn n [] records ↔ records = [] := Iff.rfl

@[simp] theorem goesOn_cons {a : α} {rest : List α} {records : List ρ} :
    GoesOn turn n (a :: rest) records ↔
      ∃ record records', records = record :: records' ∧ turn n a = .ok (.next record) ∧
        GoesOn turn (n + 1) rest records' := Iff.rfl

variable {l : List α}

theorem exists_goesOn_iff : (∃ records, GoesOn turn n l records) ↔
      ∀ k a, l[k]? = some a → ∃ record, turn (n + k) a = .ok (.next record) := by
  induction l generalizing n with
  | nil => simp
  | cons a rest ih =>
    constructor
    · intro h k b hk
      obtain ⟨records, record, records', -, hturn, hrest⟩ := h
      cases k with
      | zero =>
        rw [List.getElem?_cons_zero, Option.some.injEq] at hk
        exact ⟨record, by rw [← hk]; exact hturn⟩
      | succ k =>
        rw [List.getElem?_cons_succ] at hk
        have hnext := ih.mp ⟨records', hrest⟩ k b hk
        rwa [Nat.add_assoc, Nat.add_comm 1 k] at hnext
    · intro h
      obtain ⟨record, hturn⟩ := h 0 a rfl
      have hrest : ∃ records, GoesOn turn (n + 1) rest records := by
        apply ih.mpr
        intro k b hk
        have hnext := h (k + 1) b (by rwa [List.getElem?_cons_succ])
        rwa [Nat.add_assoc, Nat.add_comm 1 k]
      obtain ⟨records, hrecords⟩ := hrest
      exact ⟨record :: records, record, records, rfl, hturn, hrecords⟩

/-- The loop returns out of a turn if and only if every turn before it went on. -/
theorem firstStop_eq_ok_some_iff {records records' : List ρ} {result : β} :
    firstStop turn n l records = .ok (records', some result) ↔
      ∃ front a back fronts record, l = front ++ a :: back ∧ GoesOn turn n front fronts ∧
        turn (n + front.length) a = .ok (.stop record result) ∧
        records' = records ++ fronts ++ [record] := by
  induction l generalizing n records with
  | nil =>
    refine iff_of_false (by simp [firstStop]) fun h => ?_
    obtain ⟨front, a, back, _, _, hl, -⟩ := h
    simp at hl
  | cons b rest ih =>
    unfold firstStop
    cases hturn : turn n b with
    | error e =>
      refine iff_of_false nofun fun h => ?_
      obtain ⟨front, a, back, fronts, record, hl, hfront, hstop, -⟩ := h
      cases front with
      | nil =>
        obtain ⟨hb, -⟩ := List.cons.inj hl
        rw [hb] at hturn
        exact absurd (hturn.symm.trans hstop) nofun
      | cons c front =>
        obtain ⟨hb, -⟩ := List.cons.inj hl
        obtain ⟨_, _, -, hnext, -⟩ := hfront
        rw [← hb, hturn] at hnext
        exact absurd hnext nofun
    | ok t =>
      cases t with
      | next record =>
        show firstStop turn (n + 1) rest (records ++ [record]) = _ ↔ _
        rw [ih]
        constructor
        · intro ⟨front, a, back, fronts, last, hl, hfront, hstop, hrecords⟩
          refine ⟨b :: front, a, back, record :: fronts, last, ?_, ?_, ?_, ?_⟩
          · rw [hl, List.cons_append]
          · exact ⟨record, fronts, rfl, hturn, hfront⟩
          · rw [List.length_cons, ← hstop]
            congr 1
            omega
          · simp [hrecords]
        · intro ⟨front, a, back, fronts, last, hl, hfront, hstop, hrecords⟩
          cases front with
          | nil =>
            obtain ⟨hb, -⟩ := List.cons.inj hl
            rw [hb] at hturn
            exact absurd (hturn.symm.trans hstop) nofun
          | cons c front =>
            obtain ⟨hb, hrest⟩ := List.cons.inj hl
            obtain ⟨record', fronts', hfronts, hnext, hfront⟩ := hfront
            rw [← hb, hturn] at hnext
            cases hnext
            refine ⟨front, a, back, fronts', last, hrest, hfront, ?_, ?_⟩
            · rw [← hstop, List.length_cons]
              congr 1
              omega
            · simp [hrecords, hfronts]
      | stop record result' =>
        show Except.ok (records ++ [record], some result') = _ ↔ _
        rw [Except.ok.injEq, Prod.mk.injEq, Option.some.injEq]
        constructor
        · intro ⟨hrecords, hresult⟩
          refine ⟨[], b, rest, [], record, rfl, rfl, ?_, ?_⟩
          · rw [← hresult]
            exact hturn
          · simp [hrecords]
        · intro ⟨front, a, back, fronts, last, hl, hfront, hstop, hrecords⟩
          cases front with
          | nil =>
            obtain ⟨hb, -⟩ := List.cons.inj hl
            rw [← hb] at hstop
            cases hturn.symm.trans hstop
            rw [goesOn_nil.mp hfront] at hrecords
            simp [hrecords]
          | cons c front =>
            obtain ⟨hb, -⟩ := List.cons.inj hl
            obtain ⟨_, _, -, hnext, -⟩ := hfront
            rw [← hb, hturn] at hnext
            exact absurd hnext nofun

/-- The loop returns out of a turn if and only if that is the first that does not go on. -/
theorem exists_firstStop_iff {result : β} :
    (∃ records, firstStop turn 0 l [] = .ok (records, some result)) ↔
      ∃ k a record, l[k]? = some a ∧ turn k a = .ok (.stop record result) ∧
        ∀ j < k, ∀ b, l[j]? = some b → ∃ record, turn j b = .ok (.next record) := by
  simp only [firstStop_eq_ok_some_iff]
  constructor
  · intro h
    obtain ⟨records, front, a, back, fronts, record, hl, hfront, hstop, -⟩ := h
    rw [Nat.zero_add] at hstop
    refine ⟨front.length, a, record, by simp [hl], hstop, fun j hj b hb => ?_⟩
    rw [hl, List.getElem?_append_left hj] at hb
    have hnext := exists_goesOn_iff.mp ⟨fronts, hfront⟩ j b hb
    rwa [Nat.zero_add] at hnext
  · intro ⟨k, a, record, hk, hstop, hbefore⟩
    obtain ⟨hlt, ha⟩ := List.getElem?_eq_some_iff.mp hk
    have hlength : (l.take k).length = k := by
      rw [List.length_take]
      omega
    have hfront : ∃ fronts, GoesOn turn 0 (l.take k) fronts := by
      apply exists_goesOn_iff.mpr
      intro j b hb
      have hj : j < k := by
        have hlt := (List.getElem?_eq_some_iff.mp hb).1
        omega
      rw [Nat.zero_add]
      exact hbefore j hj b (by rwa [List.getElem?_take_of_lt hj] at hb)
    obtain ⟨fronts, hfronts⟩ := hfront
    refine ⟨fronts ++ [record], l.take k, a, l.drop (k + 1), fronts, record, ?_, hfronts, ?_, rfl⟩
    · rw [← ha, List.cons_getElem_drop_succ, List.take_append_drop]
    · rw [hlength, Nat.zero_add]
      exact hstop

/-- The loop runs to its end if and only if every turn goes on. -/
theorem firstStop_eq_ok_none_iff {records records' : List ρ} :
    firstStop turn n l records = .ok (records', none) ↔
      ∃ rest, GoesOn turn n l rest ∧ records' = records ++ rest := by
  induction l generalizing n records with
  | nil => simp [firstStop, eq_comm]
  | cons b rest ih =>
    unfold firstStop
    cases hturn : turn n b with
    | error e => simp [hturn]
    | ok t =>
      cases t with
      | next record =>
        show firstStop turn (n + 1) rest (records ++ [record]) = _ ↔ _
        rw [ih]
        constructor
        · intro ⟨l, hl, hrecords⟩
          exact ⟨record :: l, ⟨record, l, rfl, hturn, hl⟩, by simp [hrecords]⟩
        · intro ⟨l, ⟨record', l', hl, hnext, hrest⟩, hrecords⟩
          rw [hturn] at hnext
          cases hnext
          exact ⟨l', hrest, by simp [hrecords, hl]⟩
      | stop record result => simp [hturn]

end

end

end OmnibaseCore
