import OmnibaseCore.Python.Compare
import OmnibaseCore.SemVer.Model

/-!
# Precedence of versions

The comparisons of `ModelSemVer` go through `precedence_key`, a tuple of numbers and of a tuple of
tagged identifiers. They are those of a linear order, `ModelSemVer.precedence`, in which a release
is above its prereleases and identifiers are numbers below texts.

* `precedence_law`: what follows for versions up to `==`.
-/

namespace OmnibaseCore.SemVer

open PythonOrder

/-! ## The comparisons of the code -/

/-- The result of a comparison, as `-1`, `0` or `1`. -/
def signOf {α : Type*} [LT α] [DecidableLT α] (a b : α) : ℤ :=
  if a < b then -1 else if b < a then 1 else 0

def comparePrereleaseIdentifier : Identifier → Identifier → ℤ
  | .int a, .int b => signOf a b
  | .int _, .str _ => -1
  | .str _, .int _ => 1
  | .str a, .str b => signOf a b

def compareInt : Comparison ℤ := fun op a b => .ok (op.holds a b)

def compareIdentifier : Comparison Identifier
  | op, .int a, .int b => .ok (op.holds a b)
  | op, .str a, .str b => .ok (op.holds a b)
  | _, .int _, .str _ => .error (.typeError "not supported between instances of 'int' and 'str'")
  | _, .str _, .int _ => .error (.typeError "not supported between instances of 'str' and 'int'")

def comparator : Identifier → ℤ × Identifier
  | .int n => (0, .int n)
  | .str s => (1, .str s)

/-- What `precedence_key` returns. -/
abbrev PrecedenceKey := ℤ × ℤ × ℤ × ℤ × List (ℤ × Identifier)

namespace ModelSemVer

def precedenceKey (v : ModelSemVer) : PrecedenceKey :=
  match v.prerelease with
  | none => (v.major, v.minor, v.patch, 1, [])
  | some prerelease => (v.major, v.minor, v.patch, 0, prerelease.map comparator)

def compareKey : Comparison PrecedenceKey :=
  comparePair compareInt <| comparePair compareInt <| comparePair compareInt <|
    comparePair compareInt <| compareTuple <| comparePair compareInt compareIdentifier

/-- `__lt__`, `__le__`, `__gt__` and `__ge__`. -/
def compare (op : OrderOp) (v w : ModelSemVer) : Except PyException Bool :=
  compareKey op v.precedenceKey w.precedenceKey

def pyEq (v w : ModelSemVer) : Bool :=
  v.major = w.major && v.minor = w.minor && v.patch = w.patch && v.prerelease = w.prerelease

def pyNe (v w : ModelSemVer) : Bool := !v.pyEq w

/-- `__hash__`, given `hash` of a tuple. -/
def pyHash (hash : ℤ × ℤ × ℤ × Option (List Identifier) → ℤ) (v : ModelSemVer) : ℤ :=
  hash (v.major, v.minor, v.patch, v.prerelease)

end ModelSemVer

/-! ## The order -/

def Identifier.rank : Identifier → ℤ ⊕ₗ String
  | .int n => toLex (.inl n)
  | .str s => toLex (.inr s)

/-- The identifiers of two prereleases, from left to right. The shorter of two comes first if it
is the beginning of the other. -/
def PrereleaseLt : List Identifier → List Identifier → Prop
  | _, [] => False
  | [], _ :: _ => True
  | a :: as, b :: bs =>
    comparePrereleaseIdentifier a b = -1 ∨
      comparePrereleaseIdentifier a b = 0 ∧ PrereleaseLt as bs

/-- The rank among the versions of one core: a release is above all prereleases. -/
def prereleaseRank : Option (List Identifier) → WithTop (List (ℤ ⊕ₗ String))
  | none => ⊤
  | some prerelease => (prerelease.map Identifier.rank : List (ℤ ⊕ₗ String))

def ModelSemVer.precedence (v : ModelSemVer) :
    ℤ ×ₗ ℤ ×ₗ ℤ ×ₗ WithTop (List (ℤ ⊕ₗ String)) :=
  toLex (v.major, toLex (v.minor, toLex (v.patch, prereleaseRank v.prerelease)))

theorem rank_injective : Function.Injective Identifier.rank := by
  intro a b h
  cases a <;> cases b <;> simp_all [Identifier.rank]

theorem comparator_injective : Function.Injective comparator := by
  intro a b h
  cases a <;> cases b <;> simp_all [comparator]

theorem signOf_eq_neg_one_iff {α : Type*} [LinearOrder α] {a b : α} :
    signOf a b = -1 ↔ a < b := by
  unfold signOf
  split_ifs with hlt hgt <;> simp [hlt]

theorem signOf_eq_zero_iff {α : Type*} [LinearOrder α] {a b : α} : signOf a b = 0 ↔ a = b := by
  unfold signOf
  split_ifs with hlt hgt
  · simp [hlt.ne]
  · simp [hgt.ne']
  · simp [le_antisymm (not_lt.mp hgt) (not_lt.mp hlt)]

theorem comparePrereleaseIdentifier_eq_neg_one_iff {a b : Identifier} :
    comparePrereleaseIdentifier a b = -1 ↔ a.rank < b.rank := by
  cases a <;> cases b <;>
    simp [comparePrereleaseIdentifier, Identifier.rank, signOf_eq_neg_one_iff]

theorem comparePrereleaseIdentifier_eq_zero_iff {a b : Identifier} :
    comparePrereleaseIdentifier a b = 0 ↔ a = b := by
  cases a <;> cases b <;> simp [comparePrereleaseIdentifier, signOf_eq_zero_iff]

theorem prereleaseLt_iff (l m : List Identifier) :
    PrereleaseLt l m ↔ l.map Identifier.rank < m.map Identifier.rank := by
  induction l generalizing m with
  | nil => cases m <;> simp [PrereleaseLt]
  | cons a l ih =>
    cases m with
    | nil => simp [PrereleaseLt]
    | cons b m =>
      rw [PrereleaseLt, comparePrereleaseIdentifier_eq_neg_one_iff,
        comparePrereleaseIdentifier_eq_zero_iff, ih, List.map_cons, List.map_cons,
        List.cons_lt_cons_iff, rank_injective.eq_iff]

/-! ## The comparisons are those of the order -/

theorem follows_int : Follows compareInt (id : ℤ → ℤ) :=
  ⟨Function.injective_id, fun _ _ _ => rfl⟩

theorem follows_comparator :
    Follows (fun op a b => comparePair compareInt compareIdentifier op (comparator a)
      (comparator b)) Identifier.rank where
  injective := rank_injective
  eq := by
    intro op a b
    cases a with
    | int n =>
      cases b with
      | int m =>
        show Except.ok (op.holds n m) = _
        congr 1
        apply holds_congr <;> simp [Identifier.rank]
      | str s =>
        show Except.ok (op.holds (0 : ℤ) 1) = _
        congr 1
        apply holds_congr <;> simp [Identifier.rank]
    | str s =>
      cases b with
      | int m =>
        show Except.ok (op.holds (1 : ℤ) 0) = _
        congr 1
        apply holds_congr <;> simp [Identifier.rank]
      | str t =>
        show Except.ok (op.holds s t) = _
        congr 1
        apply holds_congr <;> simp [Identifier.rank]

namespace ModelSemVer

/-- The part of the key behind the numbers. -/
def prereleaseKey : Option (List Identifier) → ℤ × List (ℤ × Identifier)
  | none => (1, [])
  | some prerelease => (0, prerelease.map comparator)

theorem precedenceKey_eq (v : ModelSemVer) :
    v.precedenceKey = (v.major, v.minor, v.patch, prereleaseKey v.prerelease) := by
  unfold precedenceKey prereleaseKey
  cases v.prerelease <;> rfl

theorem prereleaseRank_injective : Function.Injective prereleaseRank := by
  intro o o' h
  cases o with
  | none =>
    cases o' with
    | none => rfl
    | some m => exact absurd h WithTop.top_ne_coe
  | some l =>
    cases o' with
    | none => exact absurd h WithTop.coe_ne_top
    | some m => rw [List.map_injective_iff.mpr rank_injective (WithTop.coe_injective h)]

theorem follows_prereleaseKey :
    Follows (fun op o o' => comparePair compareInt (compareTuple
      (comparePair compareInt compareIdentifier)) op (prereleaseKey o) (prereleaseKey o'))
      prereleaseRank where
  injective := prereleaseRank_injective
  eq := by
    intro op o o'
    cases o with
    | none =>
      cases o' with
      | none => exact congrArg Except.ok (holds_self op _ _)
      | some m =>
        show Except.ok (op.holds (1 : ℤ) 0) = _
        congr 1
        apply holds_congr <;> simp [prereleaseRank]
    | some l =>
      cases o' with
      | none =>
        show Except.ok (op.holds (0 : ℤ) 1) = _
        congr 1
        apply holds_congr <;> simp [prereleaseRank]
      | some m =>
        show compareTuple _ op (l.map comparator) (m.map comparator) = _
        rw [compareTuple_map comparator_injective, (follows_tuple follows_comparator).eq]
        congr 1
        apply holds_congr <;> simp [prereleaseRank]

theorem follows_compare :
    Follows (fun op (p q : ℤ × ℤ × ℤ × Option (List Identifier)) =>
      compareKey op (p.1, p.2.1, p.2.2.1, prereleaseKey p.2.2.2)
        (q.1, q.2.1, q.2.2.1, prereleaseKey q.2.2.2))
      fun p => toLex (p.1, toLex (p.2.1, toLex (p.2.2.1, prereleaseRank p.2.2.2))) :=
  follows_pair follows_int (follows_pair follows_int (follows_pair follows_int
    follows_prereleaseKey))

/-- No comparison raises, and each is that of the precedences. -/
theorem compare_eq (op : OrderOp) (v w : ModelSemVer) :
    v.compare op w = .ok (op.holds v.precedence w.precedence) := by
  unfold compare
  rw [precedenceKey_eq, precedenceKey_eq]
  exact follows_compare.eq op (v.major, v.minor, v.patch, v.prerelease)
    (w.major, w.minor, w.patch, w.prerelease)

variable {v w : ModelSemVer}

theorem pyEq_iff : v.pyEq w = true ↔ v.precedence = w.precedence := by
  have hkey : v.precedence = w.precedence ↔
      (v.major, v.minor, v.patch, v.prerelease) = (w.major, w.minor, w.patch, w.prerelease) :=
    follows_compare.injective.eq_iff (a := (v.major, v.minor, v.patch, v.prerelease))
      (b := (w.major, w.minor, w.patch, w.prerelease))
  rw [hkey]
  simp [pyEq, and_assoc]

/-- `v < w` -/
def Lt (v w : ModelSemVer) : Prop := v.compare .lt w = .ok true

theorem lt_iff : v.Lt w ↔ v.precedence < w.precedence := by
  unfold Lt
  rw [compare_eq]
  simp [OrderOp.holds]

/-- Versions up to `==`. -/
def eqSetoid : Setoid ModelSemVer where
  r v w := v.pyEq w = true
  iseqv :=
    { refl := fun _ => pyEq_iff.mpr rfl
      symm := fun h => pyEq_iff.mpr (pyEq_iff.mp h).symm
      trans := fun h h' => pyEq_iff.mpr ((pyEq_iff.mp h).trans (pyEq_iff.mp h')) }

def classPrecedence : Quotient eqSetoid → ℤ ×ₗ ℤ ×ₗ ℤ ×ₗ WithTop (List (ℤ ⊕ₗ String)) :=
  Quotient.lift precedence fun _ _ h => pyEq_iff.mp h

theorem classPrecedence_injective : Function.Injective classPrecedence := by
  intro a b
  induction a using Quotient.inductionOn with | _ v
  induction b using Quotient.inductionOn with | _ w
  intro h
  exact Quotient.sound (pyEq_iff.mpr h)

/-- What the comparisons of versions obey, given `hash` of a tuple. -/
structure PrecedenceLaw (hash : ℤ × ℤ × ℤ × Option (List Identifier) → ℤ) : Prop where
  returns : ∀ op v w, ∃ r, compare op v w = .ok r
  /-- `<` is a strict total order of the versions up to `==`. -/
  strictTotal : ∃ lt : Quotient eqSetoid → Quotient eqSetoid → Prop,
    IsStrictTotalOrder _ lt ∧ ∀ v w : ModelSemVer, lt ⟦v⟧ ⟦w⟧ ↔ v.Lt w
  eq_iff : ∀ v w : ModelSemVer, v.pyEq w = true ↔ ¬ v.Lt w ∧ ¬ w.Lt v
  ne_iff : ∀ v w : ModelSemVer, v.pyNe w = true ↔ v.Lt w ∨ w.Lt v
  le_iff : ∀ v w : ModelSemVer, v.compare .le w = .ok true ↔ v.Lt w ∨ v.pyEq w = true
  gt_iff : ∀ v w : ModelSemVer, v.compare .gt w = .ok true ↔ w.Lt v
  ge_iff : ∀ v w : ModelSemVer, v.compare .ge w = .ok true ↔ w.Lt v ∨ v.pyEq w = true
  hash_eq : ∀ v w : ModelSemVer, v.pyEq w = true → v.pyHash hash = w.pyHash hash
  /-- Build metadata is ignored. -/
  build : ∀ op (v w : ModelSemVer) b b',
    compare op { v with build := b } { w with build := b' } = compare op v w ∧
      pyEq { v with build := b } { w with build := b' } = v.pyEq w ∧
      pyNe { v with build := b } { w with build := b' } = v.pyNe w
  /-- Prereleases of one core are compared by their identifiers. -/
  prerelease : ∀ (v w : ModelSemVer) (l m : List Identifier),
    (v.major, v.minor, v.patch) = (w.major, w.minor, w.patch) →
      v.prerelease = some l → w.prerelease = some m → l ≠ [] → m ≠ [] →
      (v.Lt w ↔ PrereleaseLt l m)

theorem strictTotal_classPrecedence :
    IsStrictTotalOrder (Quotient eqSetoid) fun a b => classPrecedence a < classPrecedence b :=
  (RelEmbedding.preimage ⟨classPrecedence, classPrecedence_injective⟩ (· < ·)).isStrictTotalOrder

theorem precedence_lt_of_core {l m : List Identifier}
    (hcore : (v.major, v.minor, v.patch) = (w.major, w.minor, w.patch)) (hl : v.prerelease = some l)
    (hm : w.prerelease = some m) :
    v.precedence < w.precedence ↔ l.map Identifier.rank < m.map Identifier.rank := by
  simp only [Prod.mk.injEq] at hcore
  unfold precedence
  rw [hcore.1, hcore.2.1, hcore.2.2, hl, hm]
  simp [Prod.Lex.toLex_lt_toLex, prereleaseRank]

/-- The comparisons of versions are a total order up to build metadata, the one of the
specification. -/
theorem precedence_law (hash : ℤ × ℤ × ℤ × Option (List Identifier) → ℤ) :
    PrecedenceLaw hash where
  returns op v w := ⟨_, compare_eq op v w⟩
  strictTotal := ⟨_, strictTotal_classPrecedence, fun v w => lt_iff.symm⟩
  eq_iff v w := by
    rw [pyEq_iff, lt_iff, lt_iff, not_lt, not_lt, and_comm]
    exact le_antisymm_iff
  ne_iff v w := by
    unfold pyNe
    rw [Bool.not_eq_true', Bool.eq_false_iff, ne_eq, pyEq_iff, lt_iff, lt_iff]
    exact ne_iff_lt_or_gt
  le_iff v w := by
    rw [compare_eq, lt_iff, pyEq_iff, ← le_iff_lt_or_eq]
    simp [OrderOp.holds]
  gt_iff v w := by
    rw [compare_eq, lt_iff]
    simp [OrderOp.holds]
  ge_iff v w := by
    rw [compare_eq, lt_iff, pyEq_iff, @eq_comm _ v.precedence, ← le_iff_lt_or_eq]
    simp [OrderOp.holds]
  hash_eq v w h := by
    unfold pyHash
    simp only [pyEq, Bool.and_eq_true, decide_eq_true_eq] at h
    obtain ⟨⟨⟨hmajor, hminor⟩, hpatch⟩, hprerelease⟩ := h
    rw [hmajor, hminor, hpatch, hprerelease]
  build op v w b b' := ⟨rfl, rfl, rfl⟩
  prerelease v w l m hcore hl hm _ _ := by
    rw [lt_iff, prereleaseLt_iff]
    exact precedence_lt_of_core hcore hl hm

end ModelSemVer

end OmnibaseCore.SemVer
