import OmnibaseCore.Python.Dict

/-!
# What two collections have in common

* `joined`: the keys of a dictionary that another one has, with both values. The other way round
  they are the same (`perm_joined_swap`).
-/

namespace OmnibaseCore

/-! ## Dictionaries -/

namespace Dict

variable {κ ν μ : Type} [DecidableEq κ]

/-- The common keys of two dictionaries, with their values. -/
def joined (d : List (κ × ν)) (d' : List (κ × μ)) : List (κ × ν × μ) :=
  d.filterMap fun e => (d'.lookup e.1).map fun v => (e.1, e.2, v)

section
variable {d : List (κ × ν)} {d' : List (κ × μ)}

theorem mem_joined (hd' : (keys d').Nodup) {j : κ × ν × μ} :
    j ∈ joined d d' ↔ (j.1, j.2.1) ∈ d ∧ (j.1, j.2.2) ∈ d' := by
  unfold joined
  rw [List.mem_filterMap]
  constructor
  · intro ⟨e, he, hj⟩
    obtain ⟨v, hv, rfl⟩ := Option.map_eq_some_iff.mp hj
    exact ⟨he, mem_of_lookup hv⟩
  · intro ⟨hj, hj'⟩
    refine ⟨_, hj, ?_⟩
    show (d'.lookup j.1).map _ = some j
    rw [(lookup_eq_some_iff hd').mpr hj']
    rfl

theorem nodup_joined (hd : (keys d).Nodup) : (joined d d').Nodup := by
  apply List.Nodup.filterMap _ (List.Nodup.of_map Prod.fst hd)
  intro e e' j hj hj'
  obtain ⟨_, _, rfl⟩ := Option.map_eq_some_iff.mp hj
  obtain ⟨_, _, heq⟩ := Option.map_eq_some_iff.mp hj'
  rw [Prod.mk.injEq, Prod.mk.injEq] at heq
  exact Prod.ext heq.1.symm heq.2.1.symm

/-- An entry of two dictionaries, the other way round. -/
def swapped (j : κ × ν × μ) : κ × μ × ν := (j.1, j.2.2, j.2.1)

/-- The dictionaries have the same in common the other way round. -/
theorem perm_joined_swap (hd : (keys d).Nodup) (hd' : (keys d').Nodup) :
    ((joined d d').map swapped).Perm (joined d' d) := by
  have hinjective : Function.Injective (swapped : κ × ν × μ → κ × μ × ν) := by
    intro j j' h
    simp only [swapped, Prod.mk.injEq] at h
    exact Prod.ext h.1 (Prod.ext h.2.2 h.2.1)
  rw [List.perm_ext_iff_of_nodup ((nodup_joined hd).map hinjective) (nodup_joined hd')]
  intro j
  rw [mem_joined hd, List.mem_map]
  constructor
  · intro ⟨j', hj', heq⟩
    rw [← heq]
    exact ((mem_joined hd').mp hj').symm
  · intro ⟨hj', hj⟩
    exact ⟨(j.1, j.2.2, j.2.1), (mem_joined hd').mpr ⟨hj, hj'⟩, rfl⟩

end

end Dict

/-! ## Sets -/

section
variable {α : Type} {r : α → α → Bool} {P : α → Prop} {s t : List α}

theorem countP_eq_any (hsymm : ∀ a b, P a → P b → r a b = true → r b a = true)
    (htrans : ∀ a b c, r a b = true → r b c = true → r a c = true) {a : α} (ha : P a)
    (ht : ∀ b ∈ t, P b) (hdistinct : t.Pairwise fun b c => r b c = false) :
    t.countP (r a) = (t.any fun b => r b a).toNat := by
  induction t with
  | nil => rfl
  | cons b t ih =>
    rw [List.forall_mem_cons] at ht
    rw [List.pairwise_cons] at hdistinct
    rw [List.countP_cons, List.any_cons]
    by_cases hab : r a b = true
    · have hnone : t.countP (r a) = 0 := by
        rw [List.countP_eq_zero]
        intro c hc hac
        have hbc := htrans b a c (hsymm a b ha ht.1 hab) hac
        simp [hdistinct.1 c hc] at hbc
      rw [hnone, if_pos hab, hsymm a b ha ht.1 hab]
      rfl
    · have hba : r b a = false := by
        rw [Bool.eq_false_iff]
        exact fun hba => hab (hsymm b a ht.1 ha hba)
      rw [if_neg hab, hba, Bool.false_or]
      exact ih ht.2 hdistinct.2

theorem countP_or_of_disjoint {p q : α → Bool} (h : ∀ a ∈ t, p a = true → q a = false) :
    (t.countP fun a => p a || q a) = t.countP p + t.countP q := by
  induction t with
  | nil => rfl
  | cons a t ih =>
    rw [List.forall_mem_cons] at h
    rw [List.countP_cons, List.countP_cons, List.countP_cons, ih h.2]
    cases hp : p a with
    | false => simp [Nat.add_assoc]
    | true =>
      rw [h.1 hp]
      simp
      omega

/-- Two sets have as many elements in common either way. -/
theorem length_filter_any_comm (hsymm : ∀ a b, P a → P b → r a b = true → r b a = true)
    (htrans : ∀ a b c, r a b = true → r b c = true → r a c = true)
    (hs : ∀ a ∈ s, P a) (ht : ∀ b ∈ t, P b) (hsdistinct : s.Pairwise fun a b => r a b = false)
    (htdistinct : t.Pairwise fun a b => r a b = false) :
    (s.filter fun a => t.any fun b => r b a).length
      = (t.filter fun b => s.any fun a => r a b).length := by
  rw [← List.countP_eq_length_filter, ← List.countP_eq_length_filter]
  induction s with
  | nil => simp
  | cons a s ih =>
    rw [List.forall_mem_cons] at hs
    rw [List.pairwise_cons] at hsdistinct
    have hdisjoint : ∀ b ∈ t, r a b = true → (s.any fun c => r c b) = false := by
      intro b hb hab
      rw [List.any_eq_false]
      intro c hc hcb
      have hac := htrans a b c hab (hsymm c b (hs.2 c hc) (ht b hb) hcb)
      simp [hsdistinct.1 c hc] at hac
    have hor := countP_or_of_disjoint hdisjoint
    simp only [List.any_cons]
    rw [List.countP_cons, hor, countP_eq_any hsymm htrans hs.1 ht htdistinct,
      ih hs.2 hsdistinct.2]
    cases t.any fun b => r b a with
    | false => simp
    | true =>
      simp
      omega

end

end OmnibaseCore
