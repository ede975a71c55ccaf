import Mathlib.Data.String.Basic
import Mathlib.Tactic

/-!
# What the modelled code uses of Python

Identifiers (`uuid.UUID`) and their text form, exceptions, and the iteration order of sets.

* `UUID.str` is injective, so lists of printed identifiers can be read as lists of
  identifiers (`UUID.str_injective`).
* A set is a `Finset`. The order in which a `for` loop visits it is not specified by the
  language, so it is an argument (`SetOrder`) of every function that iterates over a set.
-/

namespace OmnibaseCore

-- Named once, so that every module finds the same instances.
instance neZero_two_pow_128 : NeZero (2 ^ 128) := inferInstance

instance isTrans_le_string : IsTrans String (· ≤ ·) := inferInstance

instance antisymm_le_string : @Std.Antisymm String (· ≤ ·) := inferInstance

instance lawfulBEq_strings : LawfulBEq (String × String) := inferInstance

/-! ## Identifiers -/

/-- `uuid.UUID`, a 128-bit integer. -/
structure UUID where
  int : Fin (2 ^ 128)
deriving DecidableEq

/-- The low `k` hexadecimal digits of `n`, most significant first. -/
def hexDigits : ℕ → ℕ → List Char
  | 0, _ => []
  | k + 1, n => hexDigits k (n / 16) ++ [Nat.digitChar (n % 16)]

/-- `str(uuid)`: the 32 digits in groups of 8, 4, 4, 4 and 12. -/
def UUID.str (u : UUID) : String :=
  let hex := hexDigits 32 u.int
  String.ofList (hex.take 8 ++ '-' :: ((hex.drop 8).take 4 ++ '-' :: ((hex.drop 12).take 4 ++
    '-' :: ((hex.drop 16).take 4 ++ '-' :: hex.drop 20))))

instance : LinearOrder UUID :=
  LinearOrder.lift' UUID.int fun a b h => by cases a; cases b; exact congrArg UUID.mk h

@[simp] theorem length_hexDigits (k n : ℕ) : (hexDigits k n).length = k := by
  induction k generalizing n with
  | zero => rfl
  | succ k ih => rw [hexDigits, List.length_append, ih, List.length_singleton]

theorem digitChar_inj {a b : ℕ} (ha : a < 16) (hb : b < 16)
    (h : Nat.digitChar a = Nat.digitChar b) : a = b := by
  interval_cases a <;> interval_cases b <;> first | rfl | exact absurd h (by decide)

theorem hexDigits_inj {k n m : ℕ} (hn : n < 16 ^ k) (hm : m < 16 ^ k)
    (h : hexDigits k n = hexDigits k m) : n = m := by
  induction k generalizing n m with
  | zero => omega
  | succ k ih =>
    rw [hexDigits, hexDigits] at h
    obtain ⟨hhigh, hlow⟩ := List.append_inj' h rfl
    rw [pow_succ] at hn hm
    have hdiv : n / 16 = m / 16 := ih (by omega) (by omega) hhigh
    have hmod : n % 16 = m % 16 :=
      digitChar_inj (Nat.mod_lt _ (by decide)) (Nat.mod_lt _ (by decide)) (by simpa using hlow)
    omega

theorem append_cons_inj {c : Char} {a a' b b' : List Char} (hlen : a.length = a'.length)
    (h : a ++ c :: b = a' ++ c :: b') : a = a' ∧ b = b' := by
  obtain ⟨ha, hb⟩ := List.append_inj h hlen
  exact ⟨ha, (List.cons.inj hb).2⟩

/-- The text of an identifier determines it. -/
theorem UUID.str_injective : Function.Injective UUID.str := by
  intro a b h
  have hchars := String.ofList_injective h
  obtain ⟨h₁, hchars⟩ := append_cons_inj (by simp) hchars
  obtain ⟨h₂, hchars⟩ := append_cons_inj (by simp) hchars
  obtain ⟨h₃, hchars⟩ := append_cons_inj (by simp) hchars
  obtain ⟨h₄, h₅⟩ := append_cons_inj (by simp) hchars
  -- put the groups together again, from the last to the first
  have h16 := congrArg₂ (· ++ ·) h₄ h₅
  have h12 := congrArg₂ (· ++ ·) h₃ h16
  have h8 := congrArg₂ (· ++ ·) h₂ h12
  have h0 := congrArg₂ (· ++ ·) h₁ h8
  have hdigits : hexDigits 32 a.int = hexDigits 32 b.int := by
    have hsplit : ∀ l : List Char, l.take 8 ++ ((l.drop 8).take 4 ++ ((l.drop 12).take 4 ++
        ((l.drop 16).take 4 ++ l.drop 20))) = l := by
      intro l
      have h4 : ∀ n, (l.drop n).take 4 ++ l.drop (n + 4) = l.drop n := fun n => by
        rw [← List.drop_drop, List.take_append_drop]
      rw [h4 16, h4 12, h4 8, List.take_append_drop]
    simpa only [hsplit] using h0
  cases a
  cases b
  exact congrArg UUID.mk (Fin.ext (hexDigits_inj (Fin.isLt _) (Fin.isLt _) hdigits))

/-! ## Text -/

/-- A character in a string of `json.dumps`, which escapes all but printable ASCII. -/
def jsonEscape (c : Char) : List Char :=
  let n := c.toNat
  if n = 0x22 ∨ n = 0x5c then ['\\', c]
  else if n = 0x08 then ['\\', 'b']
  else if n = 0x09 then ['\\', 't']
  else if n = 0x0a then ['\\', 'n']
  else if n = 0x0c then ['\\', 'f']
  else if n = 0x0d then ['\\', 'r']
  else if 0x20 ≤ n ∧ n ≤ 0x7e then [c]
  else if n < 0x10000 then '\\' :: 'u' :: hexDigits 4 n
  else
    -- a surrogate pair
    '\\' :: 'u' :: hexDigits 4 (0xd800 + (n - 0x10000) / 0x400) ++
      '\\' :: 'u' :: hexDigits 4 (0xdc00 + (n - 0x10000) % 0x400)

/-- `json.dumps` of a string. -/
def jsonString (s : String) : String :=
  "\"" ++ String.ofList (s.toList.flatMap jsonEscape) ++ "\""

/-! ## Exceptions -/

/-- `EnumCoreErrorCode`, the members that the modelled code raises. -/
inductive EnumCoreErrorCode
  | orchestratorExecIterationLimitExceeded
  | orchestratorSemanticCycleDetected
  | orchestratorExecWorkflowFailed
  | validationError
  | workflowPayloadSizeExceeded
  | workflowTotalPayloadExceeded
  | invalidState
  | contractValidationError
  | invalidParameter
  | invalidInput
  | configurationNotFound
  | configurationError
  | operationFailed
  | timeoutExceeded
  | resourceUnavailable
  | unsupportedOperation
  | handlerExecutionError
  | securityViolation
  | registryResolutionFailed
  | methodNotImplemented
  | replayRecordNotFound
  | replayNotInReplayMode
  | replayInvalidEffectType
  | invalidOperation
  | fileNotFound
  | itemNotRegistered
  | duplicateRegistration
deriving DecidableEq

def EnumCoreErrorCode.value : EnumCoreErrorCode → String
  | .orchestratorExecIterationLimitExceeded =>
    "ONEX_CORE_317_ORCHESTRATOR_EXEC_ITERATION_LIMIT_EXCEEDED"
  | .orchestratorSemanticCycleDetected => "ONEX_CORE_301_ORCHESTRATOR_SEMANTIC_CYCLE_DETECTED"
  | .orchestratorExecWorkflowFailed => "ONEX_CORE_316_ORCHESTRATOR_EXEC_WORKFLOW_FAILED"
  | .validationError => "ONEX_CORE_006_VALIDATION_ERROR"
  | .workflowPayloadSizeExceeded => "ONEX_CORE_282_WORKFLOW_PAYLOAD_SIZE_EXCEEDED"
  | .workflowTotalPayloadExceeded => "ONEX_CORE_283_WORKFLOW_TOTAL_PAYLOAD_EXCEEDED"
  | .invalidState => "ONEX_CORE_086_INVALID_STATE"
  | .contractValidationError => "ONEX_CORE_097_CONTRACT_VALIDATION_ERROR"
  | .invalidParameter => "ONEX_CORE_001_INVALID_PARAMETER"
  | .invalidInput => "ONEX_CORE_007_INVALID_INPUT"
  | .configurationNotFound => "ONEX_CORE_042_CONFIGURATION_NOT_FOUND"
  | .configurationError => "ONEX_CORE_044_CONFIGURATION_ERROR"
  | .operationFailed => "ONEX_CORE_081_OPERATION_FAILED"
  | .timeoutExceeded => "ONEX_CORE_082_TIMEOUT_EXCEEDED"
  | .resourceUnavailable => "ONEX_CORE_083_RESOURCE_UNAVAILABLE"
  | .unsupportedOperation => "ONEX_CORE_084_UNSUPPORTED_OPERATION"
  | .handlerExecutionError => "ONEX_CORE_095_HANDLER_EXECUTION_ERROR"
  | .securityViolation => "ONEX_CORE_222_SECURITY_VIOLATION"
  | .registryResolutionFailed => "ONEX_CORE_066_REGISTRY_RESOLUTION_FAILED"
  | .methodNotImplemented => "ONEX_CORE_141_METHOD_NOT_IMPLEMENTED"
  | .replayRecordNotFound => "ONEX_CORE_331_REPLAY_RECORD_NOT_FOUND"
  | .replayNotInReplayMode => "ONEX_CORE_332_REPLAY_NOT_IN_REPLAY_MODE"
  | .replayInvalidEffectType => "ONEX_CORE_333_REPLAY_INVALID_EFFECT_TYPE"
  | .invalidOperation => "ONEX_CORE_008_INVALID_OPERATION"
  | .fileNotFound => "ONEX_CORE_021_FILE_NOT_FOUND"
  | .itemNotRegistered => "ONEX_CORE_063_ITEM_NOT_REGISTERED"
  | .duplicateRegistration => "ONEX_CORE_064_DUPLICATE_REGISTRATION"

inductive ContextValue
  | int (n : ℤ)
  | float (q : ℚ)
  | str (s : String)
  | strs (l : List String)
  | pairs (l : List (String × String))
  | floats (l : List (String × ℚ))
deriving DecidableEq

/-- `ModelOnexError`, the exception of the repository. -/
structure ModelOnexError where
  errorCode : EnumCoreErrorCode
  message : String
  context : List (String × ContextValue)
deriving DecidableEq

/-- An exception below `Exception`, sorted as the `except` clauses of the code tell them
apart. -/
inductive PyException
  | modelOnexError (e : ModelOnexError)
  | typeError (message : String)
  | valueError (message : String)
  | validationError (message : String)
  | overflowError (message : String)
  | reError (message : String)
  | other (cls message : String)
deriving DecidableEq

/-- `isinstance(e, VALIDATION_ERRORS)`, with
`VALIDATION_ERRORS = (TypeError, ValidationError, ValueError)`. -/
def PyException.isValidationError : PyException → Bool
  | .typeError _ | .valueError _ | .validationError _ => true
  | _ => false

/-- `str(e)`. -/
def PyException.str : PyException → String
  | .modelOnexError e => "[" ++ e.errorCode.value ++ "] " ++ e.message
  | .typeError m | .valueError m | .validationError m | .overflowError m | .reError m => m
  | .other _ m => m

/-- `type(e).__name__`. -/
def PyException.typeName : PyException → String
  | .modelOnexError _ => "ModelOnexError"
  | .typeError _ => "TypeError"
  | .valueError _ => "ValueError"
  | .validationError _ => "ValidationError"
  | .overflowError _ => "OverflowError"
  | .reError _ => "error"
  | .other cls _ => cls

/-! ### Calls that return -/

variable {ε α β : Type}

theorem bind_eq_ok_iff {x : Except ε α} {f : α → Except ε β} {b : β} :
    x >>= f = .ok b ↔ ∃ a, x = .ok a ∧ f a = .ok b := by
  cases x with
  | error e => exact ⟨nofun, fun ⟨_, h, _⟩ => nomatch h⟩
  | ok a =>
    constructor
    · intro h
      exact ⟨a, rfl, h⟩
    · rintro ⟨a', ha, h⟩
      cases ha
      exact h

theorem bind_eq_ok {x : Except ε α} {f : α → Except ε β} {b : β}
    (h : x >>= f = .ok b) : ∃ a, x = .ok a ∧ f a = .ok b :=
  bind_eq_ok_iff.mp h

theorem map_eq_ok {x : Except ε α} {f : α → β} {b : β} (h : x.map f = .ok b) :
    ∃ a, x = .ok a ∧ f a = b := by
  cases x with
  | error e => exact nomatch h
  | ok a => exact ⟨a, rfl, Except.ok.inj h⟩

theorem exists_of_mapM_ok {f : α → Except ε β} {l : List α} {l' : List β}
    (h : l.mapM f = .ok l') : ∀ b ∈ l', ∃ a ∈ l, f a = .ok b := by
  induction l generalizing l' with
  | nil =>
    cases h
    simp
  | cons a l ih =>
    rw [List.mapM_cons] at h
    rcases bind_eq_ok h with ⟨b, hb, h⟩
    rcases bind_eq_ok h with ⟨bs, hbs, h⟩
    cases h
    rw [List.forall_mem_cons]
    refine ⟨⟨a, List.mem_cons_self, hb⟩, fun b' hb' => ?_⟩
    rcases ih hbs b' hb' with ⟨a', ha', hf⟩
    exact ⟨a', List.mem_cons_of_mem a ha', hf⟩

theorem mapM_eq_ok_map {f : α → Except ε β} {g : α → β} {l : List α}
    (h : ∀ a ∈ l, f a = .ok (g a)) : l.mapM f = .ok (l.map g) := by
  induction l with
  | nil => rfl
  | cons a l ih =>
    rw [List.forall_mem_cons] at h
    rw [List.mapM_cons, h.1, ih h.2]
    rfl

theorem mapM_eq_ok_iff {f : α → Except ε β} {P : α → Prop} {g : α → β}
    (hf : ∀ a b, f a = .ok b ↔ P a ∧ b = g a) {l : List α} {l' : List β} :
    l.mapM f = .ok l' ↔ (∀ a ∈ l, P a) ∧ l' = l.map g := by
  have hmap : (∀ a ∈ l, P a) → l.mapM f = .ok (l.map g) := fun h =>
    mapM_eq_ok_map fun a ha => (hf a _).mpr ⟨h a ha, rfl⟩
  constructor
  · intro h
    have hl : ∀ a ∈ l, P a := by
      clear hmap
      induction l generalizing l' with
      | nil => exact fun _ h => (nomatch h)
      | cons a l ih =>
        rw [List.mapM_cons] at h
        rcases bind_eq_ok h with ⟨b, hb, h⟩
        rcases bind_eq_ok h with ⟨bs, hbs, -⟩
        exact List.forall_mem_cons.mpr ⟨((hf a b).mp hb).1, ih hbs⟩
    rw [hmap hl] at h
    exact ⟨hl, (Except.ok.inj h).symm⟩
  · rintro ⟨hl, rfl⟩
    exact hmap hl

theorem forall_of_mapM_ok {f : α → Except ε β} {P : β → Prop}
    (hf : ∀ a b, f a = .ok b → P b) {l : List α} {l' : List β} (h : l.mapM f = .ok l') :
    ∀ b ∈ l', P b := by
  intro b hb
  rcases exists_of_mapM_ok h b hb with ⟨a, -, hab⟩
  exact hf a b hab

theorem forM_eq_ok_iff {α ε : Type} {f : α → Except ε Unit} {l : List α} :
    l.forM f = .ok () ↔ ∀ a ∈ l, f a = .ok () := by
  induction l with
  | nil => exact ⟨fun _ _ h => (nomatch h), fun _ => rfl⟩
  | cons a rest ih =>
    rw [List.forall_mem_cons, ← ih]
    exact ⟨fun h => let ⟨(), ha, hrest⟩ := bind_eq_ok h; ⟨ha, hrest⟩,
      fun h => bind_eq_ok_iff.mpr ⟨(), h.1, h.2⟩⟩

theorem exists_foldlM_iff {σ β ε : Type} {f : σ → β → Except ε σ} {P : β → Prop}
    (hf : ∀ s b, (∃ s', f s b = .ok s') ↔ P b) {l : List β} {s : σ} :
    (∃ s', l.foldlM f s = .ok s') ↔ ∀ b ∈ l, P b := by
  induction l generalizing s with
  | nil => exact ⟨fun _ _ h => (nomatch h), fun _ => ⟨s, rfl⟩⟩
  | cons b rest ih =>
    rw [List.foldlM_cons, List.forall_mem_cons]
    constructor
    · intro ⟨s', hs'⟩
      obtain ⟨next, hnext, hrest⟩ := bind_eq_ok hs'
      exact ⟨(hf s b).mp ⟨next, hnext⟩, ih.mp ⟨s', hrest⟩⟩
    · intro ⟨hb, hrest⟩
      obtain ⟨next, hnext⟩ := (hf s b).mpr hb
      obtain ⟨s', hs'⟩ := ih.mpr hrest
      exact ⟨s', by rw [hnext]; exact hs'⟩

/-! ## Sets -/

structure SetOrder (α : Type*) where
  iter : Finset α → List α
  nodup_iter : ∀ s, (iter s).Nodup
  mem_iter : ∀ s a, a ∈ iter s ↔ a ∈ s

def SetOrder.ascending (α : Type*) [LinearOrder α] : SetOrder α where
  iter s := Quot.liftOn s.val (List.insertionSort (· ≤ ·)) fun _ _ h =>
    (((List.perm_insertionSort _ _).trans h).trans
      (List.perm_insertionSort _ _).symm).eq_of_pairwise
        (fun _ _ _ _ => le_antisymm) (List.pairwise_insertionSort _ _)
        (List.pairwise_insertionSort _ _)
  nodup_iter := by
    rintro ⟨⟨l⟩, hl⟩
    exact (List.perm_insertionSort _ l).nodup_iff.mpr hl
  mem_iter := by
    rintro ⟨⟨l⟩, hl⟩ a
    exact (List.perm_insertionSort _ l).mem_iff

/-- Iteration that comes to one element before all others. -/
def SetOrder.leading {α : Type*} [LinearOrder α] (a : α) : SetOrder α where
  iter s :=
    if a ∈ s then a :: (SetOrder.ascending α).iter (s.erase a) else (SetOrder.ascending α).iter s
  nodup_iter s := by
    split_ifs
    · rw [List.nodup_cons, (SetOrder.ascending α).mem_iter]
      exact ⟨Finset.notMem_erase a s, (SetOrder.ascending α).nodup_iter _⟩
    · exact (SetOrder.ascending α).nodup_iter s
  mem_iter s b := by
    split_ifs with ha
    · rw [List.mem_cons, (SetOrder.ascending α).mem_iter, ← Finset.mem_insert,
        Finset.insert_erase ha]
    · exact (SetOrder.ascending α).mem_iter s b

theorem SetOrder.length_iter {α : Type*} (σ : SetOrder α) (s : Finset α) :
    (σ.iter s).length = s.card := by
  classical
  have hset : (σ.iter s).toFinset = s := by
    ext a
    rw [List.mem_toFinset, σ.mem_iter]
  rw [← List.toFinset_card_of_nodup (σ.nodup_iter s), hset]

/-! ## Repeated elements -/

section
variable {α : Type*} [DecidableEq α]

/-- The elements of a list that have been seen before they occur, each as often as that. -/
def repeated (seen : Finset α) : List α → List α
  | [] => []
  | a :: rest =>
    if a ∈ seen then a :: repeated (insert a seen) rest else repeated (insert a seen) rest

theorem repeated_eq_nil_iff {seen : Finset α} {l : List α} :
    repeated seen l = [] ↔ l.Nodup ∧ ∀ a ∈ l, a ∉ seen := by
  induction l generalizing seen with
  | nil => simp [repeated]
  | cons a l ih =>
    rw [repeated, List.nodup_cons, List.forall_mem_cons]
    by_cases ha : a ∈ seen
    · rw [if_pos ha]
      simp [ha]
    · rw [if_neg ha, ih]
      simp only [Finset.mem_insert, not_or]
      constructor
      · intro h
        exact ⟨⟨fun hmem => (h.2 a hmem).1 rfl, h.1⟩, ha, fun b hb => (h.2 b hb).2⟩
      · intro h
        refine ⟨h.1.2, fun b hb => ⟨fun heq => ?_, h.2.2 b hb⟩⟩
        rw [heq] at hb
        exact h.1.1 hb

theorem repeated_empty_eq_nil_iff {l : List α} : repeated ∅ l = [] ↔ l.Nodup := by
  rw [repeated_eq_nil_iff]
  simp

end

/-! ## Loops with `break` -/

section
variable {β σ : Type*}

/-- A `for` loop. The body returns the new state and whether it ended in `break`. -/
def forBreak (body : β → σ → σ × Bool) : List β → σ → σ
  | [], s => s
  | x :: rest, s =>
    match body x s with
    | (s, true) => s
    | (s, false) => forBreak body rest s

variable {body : β → σ → σ × Bool}

theorem forBreak_cases {l : List β} {s : σ} (I : List β → σ → Prop) (hinit : I [] s)
    (hstep : ∀ done x rest s s', l = done ++ x :: rest → I done s → body x s = (s', false) →
      I (done ++ [x]) s') :
    I l (forBreak body l s) ∨ ∃ done x rest s', l = done ++ x :: rest ∧ I done s' ∧
      body x s' = (forBreak body l s, true) := by
  have hgen : ∀ (rest done : List β) (s : σ), l = done ++ rest → I done s →
      I l (forBreak body rest s) ∨ ∃ done' x rest' s', l = done' ++ x :: rest' ∧ I done' s' ∧
        body x s' = (forBreak body rest s, true) := by
    intro rest
    induction rest with
    | nil =>
      intro done s hl hI
      rw [List.append_nil] at hl
      subst hl
      exact Or.inl hI
    | cons x rest ih =>
      intro done s hl hI
      unfold forBreak
      cases hbody : body x s with
      | mk s' stop =>
        cases stop with
        | true => exact Or.inr ⟨done, x, rest, s, hl, hI, hbody⟩
        | false => exact ih (done ++ [x]) s' (by simp [hl]) (hstep done x rest s s' hl hI hbody)
  exact hgen l [] s rfl hinit

theorem forBreak_rule {l : List β} {s : σ} (I : List β → σ → Prop) (hinit : I [] s)
    (hstep : ∀ done x rest s, l = done ++ x :: rest → I done s → I (done ++ [x]) (body x s).1) :
    ∃ done rest, l = done ++ rest ∧ I done (forBreak body l s) ∧
      (rest = [] ∨ ∃ done' x s', done = done' ++ [x] ∧ I done' s' ∧
        body x s' = (forBreak body l s, true)) := by
  have hgo : ∀ done x rest s s', l = done ++ x :: rest → I done s → body x s = (s', false) →
      I (done ++ [x]) s' := by
    intro done x rest s s' hl hI hbody
    have hI' := hstep done x rest s hl hI
    rwa [hbody] at hI'
  rcases forBreak_cases I hinit hgo with hend | ⟨done, x, rest, s', hl, hI, hbody⟩
  · exact ⟨l, [], (List.append_nil l).symm, hend, Or.inl rfl⟩
  · have hI' := hstep done x rest s' hl hI
    rw [hbody] at hI'
    exact ⟨done ++ [x], rest, by simp [hl], hI', Or.inr ⟨done, x, s', rfl, hI, hbody⟩⟩

theorem le_forBreak_cons {f : σ → ℕ} (hbody : ∀ x s, f s ≤ f (body x s).1) (x : β) (l : List β)
    (s : σ) : f (body x s).1 ≤ f (forBreak body (x :: l) s) := by
  have hrest : ∀ s, f s ≤ f (forBreak body l s) := by
    intro s
    rcases forBreak_rule (l := l) (fun _ s' => f s ≤ f s') (Nat.le_refl _)
      (fun _ x _ s' _ h => h.trans (hbody x s')) with ⟨_, _, _, h, _⟩
    exact h
  unfold forBreak
  cases body x s with
  | mk s' stop =>
    cases stop with
    | true => exact Nat.le_refl _
    | false => exact hrest s'

end

/-! ## Loops that add -/

theorem foldl_or_iff {γ β : Type*} {f : γ → β → γ} {P : γ → Prop} {R : β → Prop}
    (hstep : ∀ g x, P (f g x) ↔ P g ∨ R x) (l : List β) (g : γ) :
    P (l.foldl f g) ↔ P g ∨ ∃ x ∈ l, R x := by
  induction l generalizing g with
  | nil => simp
  | cons x l ih =>
    rw [List.foldl_cons, ih, hstep, or_assoc]
    simp only [List.exists_mem_cons_iff]

/-! ## Dictionaries filled in a loop -/

section
variable {κ ν β : Type*} [DecidableEq κ]

theorem update_eq_some {f : κ → Option ν} {key k : κ} {x : Option ν} {b : ν}
    (h : Function.update f key x k = some b) :
    (k ≠ key ∧ f k = some b) ∨ (k = key ∧ x = some b) := by
  by_cases hk : k = key
  · rw [hk, Function.update_self] at h
    exact Or.inr ⟨hk, h⟩
  · rw [Function.update_of_ne hk] at h
    exact Or.inl ⟨hk, h⟩

theorem isSome_update {f : κ → Option ν} {key k : κ} {x : Option ν}
    (h : (Function.update f key x k).isSome = true) :
    (k ≠ key ∧ (f k).isSome = true) ∨ (k = key ∧ x.isSome = true) := by
  by_cases hk : k = key
  · rw [hk, Function.update_self] at h
    exact Or.inr ⟨hk, h⟩
  · rw [Function.update_of_ne hk] at h
    exact Or.inl ⟨hk, h⟩

variable (key : β → κ)

theorem foldl_update_append (value : β → ν) (l : List β) (d : κ → List ν) (k : κ) :
    l.foldl (fun d x => Function.update d (key x) (d (key x) ++ [value x])) d k
      = d k ++ (l.filter fun x => key x = k).map value := by
  induction l generalizing d with
  | nil => simp
  | cons x l ih =>
    rw [List.foldl_cons, ih]
    by_cases hx : key x = k
    · subst hx
      rw [Function.update_self, List.filter_cons_of_pos (by simp), List.map_cons,
        List.append_assoc, List.singleton_append]
    · rw [Function.update_of_ne (Ne.symm hx), List.filter_cons_of_neg (by simpa using hx)]

theorem foldl_update_add_one (l : List β) (d : κ → ℤ) (k : κ) :
    l.foldl (fun d x => Function.update d (key x) (d (key x) + 1)) d k
      = d k + (l.countP fun x => key x = k : ℕ) := by
  induction l generalizing d with
  | nil => simp
  | cons x l ih =>
    rw [List.foldl_cons, ih]
    by_cases hx : key x = k
    · subst hx
      rw [Function.update_self, List.countP_cons_of_pos (by simp)]
      push_cast
      ring
    · rw [Function.update_of_ne (Ne.symm hx), List.countP_cons_of_neg (by simpa using hx)]

theorem foldl_update_of_notMem (value : β → ν) (l : List β) (d : κ → ν) {k : κ}
    (hk : k ∉ l.map key) :
    l.foldl (fun d x => Function.update d (key x) (value x)) d k = d k := by
  induction l generalizing d with
  | nil => rfl
  | cons x l ih =>
    rw [List.map_cons, List.mem_cons, not_or] at hk
    rw [List.foldl_cons, ih _ hk.2, Function.update_of_ne hk.1]

theorem foldl_update_of_nodup (value : β → ν) {l : List β} (d : κ → ν)
    (hl : (l.map key).Nodup) {x : β} (hx : x ∈ l) :
    l.foldl (fun d x => Function.update d (key x) (value x)) d (key x) = value x := by
  induction l generalizing d with
  | nil => cases hx
  | cons y l ih =>
    rw [List.map_cons, List.nodup_cons] at hl
    rw [List.foldl_cons]
    rcases List.mem_cons.mp hx with rfl | hx
    · rw [foldl_update_of_notMem key value l _ hl.1, Function.update_self]
    · exact ih _ hl.2 hx

theorem exists_of_foldl_update (value : β → ν) (l : List β) (d : κ → ν) {k : κ}
    (hk : k ∈ l.map key) :
    ∃ x ∈ l, key x = k ∧
      l.foldl (fun d x => Function.update d (key x) (value x)) d k = value x := by
  induction l generalizing d with
  | nil => cases hk
  | cons y l ih =>
    rw [List.foldl_cons]
    by_cases hl : k ∈ l.map key
    · obtain ⟨x, hx, hkey, heq⟩ := ih _ hl
      exact ⟨x, List.mem_cons_of_mem y hx, hkey, heq⟩
    · rw [List.map_cons, List.mem_cons] at hk
      obtain rfl : k = key y := hk.resolve_right hl
      refine ⟨y, List.mem_cons_self, rfl, ?_⟩
      rw [foldl_update_of_notMem key value l _ hl, Function.update_self]

end

end OmnibaseCore
