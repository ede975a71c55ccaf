import OmnibaseCore.Caching.Cache

/-!
# Coherence of the two levels

Over every run of calls on one event loop, with a backend that fails and disconnects at will.

* `cache_coherence`: with a backend that hands back what it is given, `get_cached` returns what a
  `set_cached` has stored, and in a run that is careful at its key no value that had been replaced
  before.
-/

namespace OmnibaseCore.Caching

variable {Obj : Type}

/-! ## Stale values -/

def CacheCall.Covers : CacheCall Obj → String → Prop
  | .getCached _, _ => False
  | .setCached cacheKey _ _, k => cacheKey = k
  | .invalidateCache cacheKey, k => cacheKey = k
  | .clearCache, _ => True

def Before (a b : CallRecord Obj) : Prop := ∃ v f, a.phase = .returned v f ∧ f < b.startedAt

/-- The backend hands back every object as it was stored. -/
def CacheConfig.Reloads (cfg : CacheConfig Obj) : Prop := ∀ v, cfg.reload v = v

/-- A `set_cached` is one with a positive time to live. -/
def CacheEvent.PositiveTtl (cfg : CacheConfig Obj) : CacheEvent Obj → Prop
  | .begin (.setCached _ _ ttlSeconds) _ _ => ∀ ttl ∈ cfg.ttl ttlSeconds, 0 < ttl
  | _ => True

/-- What keeps the levels together at a key: a call that covers it and whose operation the backend
does not carry out leaves nothing behind there, and a `get_cached` of the key fills the first level
only if the operations of all calls that cover the key were settled before its own. -/
def Careful (k : String) (loop : CacheLoop Obj) : CacheEvent Obj → Prop
  | .begin call connected _ => connected = false → call.Covers k → loop.backend k = none
  | .settle task (.fails false) =>
    ∀ record, loop.calls[task]? = some record → record.phase = .requested →
      record.call.Covers k → loop.backend k = none
  | .resume task _ =>
    ∀ g v, loop.calls[task]? = some g → g.call = .getCached k →
      g.phase = .answered (.value (some v)) →
      ∀ b ∈ loop.calls, b.call.Covers k →
        ∃ m n, b.settledAt = some m ∧ g.settledAt = some n ∧ m < n
  | _ => True

def CarefulRun (cfg : CacheConfig Obj) (k : String) :
    CacheLoop Obj → List (CacheEvent Obj) → Prop
  | _, [] => True
  | loop, event :: events => Careful k loop event ∧ CarefulRun cfg k (loop.step cfg event) events

/-! ## What a step can do -/

/-- What a step makes of a call that has begun. -/
inductive Evolves (s : CacheLoop Obj) (r : CallRecord Obj) : CallRecord Obj → Prop
  | same : Evolves s r r
  | settled (reply : BackendReply Obj) (hphase : r.phase = .requested)
    (hreply : ∀ v, reply = .value (some v) → ∃ k, r.call = .getCached k ∧
      s.backend k = some (some v)) :
    Evolves s r { r with settledAt := some s.clock, phase := .answered reply }
  | resumed (progress : Progress Obj) (hphase : r.phase ≠ .requested)
    (hopen : ∀ v f, r.phase ≠ .returned v f) (hprogress : progress ≠ .requested)
    (hvalue : ∀ v, progress = .returned (some v) → r.phase = .answered (.value (some v))) :
    Evolves s r { r with phase := progress.phase s.clock }

inductive Begins (s : CacheLoop Obj) : CallRecord Obj → Prop
  | begin (call : CacheCall Obj) (progress : Progress Obj) (hprogress : progress ≠ .closing)
    (hvalue : ∀ v, progress = .returned (some v) → ∃ k e, call = .getCached k ∧
      s.cache.cacheData k = some (some v, e)) :
    Begins s {
      call := call
      startedAt := s.clock
      settledAt := progress.settledAt s.clock
      phase := progress.phase s.clock }

/-- A step, which is careful at the keys with `P`. -/
structure Moves (P : String → Prop) (s s' : CacheLoop Obj) : Prop where
  clock : s'.clock = s.clock + 1
  kept : ∀ r ∈ s.calls, ∃ r' ∈ s'.calls, Evolves s r r'
  calls : ∀ r' ∈ s'.calls, (∃ r ∈ s.calls, Evolves s r r') ∨ Begins s r'
  cacheData : ∀ k v e, s'.cache.cacheData k = some (v, e) →
    (s.cache.cacheData k = some (v, e) ∧
        (P k → ∀ r' ∈ s'.calls, r'.startedAt = s.clock → ¬ r'.call.Covers k)) ∨
      (∃ r' ∈ s'.calls, r'.startedAt = s.clock ∧ ∃ ttl, r'.call = .setCached k v ttl) ∨
      ∃ g ∈ s.calls, ∃ value, v = some value ∧ g.call = .getCached k ∧
        g.phase = .answered (.value (some value)) ∧
        (∀ r' ∈ s'.calls, r'.startedAt ≠ s.clock) ∧
        (P k → ∀ b ∈ s.calls, b.call.Covers k →
          ∃ m n, b.settledAt = some m ∧ g.settledAt = some n ∧ m < n)
  backend : ∀ k v, s'.backend k = some v →
    (s.backend k = some v ∧
        (P k → ∀ r' ∈ s'.calls, r'.settledAt = some s.clock → ¬ r'.call.Covers k)) ∨
      ∃ r ∈ s.calls, r.phase = .requested ∧ ∃ ttl, r.call = .setCached k v ttl

section
variable {s : CacheLoop Obj} {r r' : CallRecord Obj}

theorem Evolves.call_eq (h : Evolves s r r') : r'.call = r.call := by
  cases h <;> rfl

theorem Evolves.startedAt_eq (h : Evolves s r r') : r'.startedAt = r.startedAt := by
  cases h <;> rfl

variable {v : Option Obj}

theorem Progress.of_phase {progress : Progress Obj} {clock f : ℕ}
    (h : progress.phase clock = .returned v f) : progress = .returned v ∧ f = clock := by
  cases progress with
  | returned value =>
    obtain ⟨rfl, rfl⟩ := CallPhase.returned.inj h
    exact ⟨rfl, rfl⟩
  | requested => exact nomatch h
  | closing => exact nomatch h

theorem Begins.startedAt_eq (h : Begins s r') : r'.startedAt = s.clock := by
  cases h
  rfl

theorem Begins.returned_eq (h : Begins s r') {f : ℕ}
    (hphase : r'.phase = .returned v f) : f = s.clock := by
  cases h
  exact (Progress.of_phase hphase).2

theorem Begins.settledAt_eq (h : Begins s r') {m : ℕ} (hsettled : r'.settledAt = some m) :
    m = s.clock := by
  cases h with
  | begin call progress hprogress hvalue =>
    cases progress with
    | returned value => exact (Option.some.inj hsettled).symm
    | requested => exact nomatch hsettled
    | closing => exact absurd rfl hprogress

/-- A call that has returned did so before, or does at this step. -/
theorem Evolves.returned (h : Evolves s r r') {f : ℕ}
    (hphase : r'.phase = .returned v f) : r.phase = .returned v f ∨ f = s.clock := by
  cases h with
  | same => exact Or.inl hphase
  | settled reply hrequested hreply => exact nomatch hphase
  | resumed progress hnot hopen hprogress hvalue => exact Or.inr (Progress.of_phase hphase).2

theorem Evolves.settledAt (h : Evolves s r r') {m : ℕ} (hsettled : r'.settledAt = some m) :
    r.settledAt = some m ∨ m = s.clock := by
  cases h with
  | same => exact Or.inl hsettled
  | settled reply hrequested hreply => exact Or.inr (Option.some.inj hsettled).symm
  | resumed progress hnot hopen hprogress hvalue => exact Or.inl hsettled

theorem Before.of_evolves (h : Evolves s r r') {g : CallRecord Obj} (hg : g.startedAt ≤ s.clock)
    (hbefore : Before r' g) : Before r g := by
  obtain ⟨v, f, hphase, hlt⟩ := hbefore
  rcases h.returned hphase with hphase | rfl
  · exact ⟨v, f, hphase, hlt⟩
  · omega

end

/-! ## The steps -/

section
variable {cfg : CacheConfig Obj} {cache : MixinCaching Obj} {now : ℚ}

variable (cache now) in
theorem getL1_eq (cacheKey : String) :
    (∃ v e, cache.cacheData cacheKey = some (v, e) ∧ cache.getL1 now cacheKey = (some v, cache)) ∨
      (cache.getL1 now cacheKey).1 = none ∧
        ∀ k v e, (cache.getL1 now cacheKey).2.cacheData k = some (v, e) →
          cache.cacheData k = some (v, e) := by
  unfold MixinCaching.getL1
  cases hentry : cache.cacheData cacheKey with
  | none => exact Or.inr ⟨rfl, fun _ _ _ h => h⟩
  | some entry =>
    dsimp only
    split_ifs with hexpired
    · refine Or.inr ⟨rfl, fun k v e h => ?_⟩
      by_cases hk : k = cacheKey
      · rw [hk] at h
        simp at h
      · simpa [Function.update_of_ne hk] using h
    · exact Or.inl ⟨entry.1, entry.2, rfl, rfl⟩

/-- How far a call comes before it waits, and what it leaves in the first level. -/
structure BeginSpec (cfg : CacheConfig Obj) (cache : MixinCaching Obj) (connected : Bool) (now : ℚ)
    (call : CacheCall Obj) (progress : Progress Obj) (cache' : MixinCaching Obj) : Prop where
  waits : progress ≠ .closing
  value : ∀ v, progress = .returned (some v) →
    ∃ k e, call = .getCached k ∧ cache.cacheData k = some (some v, e)
  requests : ∀ k, call.Covers k → cfg.cacheEnabled = true →
    (CacheEvent.begin call connected now).PositiveTtl cfg → connected = true →
    progress = .requested
  cacheData : ∀ k v e, cache'.cacheData k = some (v, e) →
    (cache.cacheData k = some (v, e) ∧ (cfg.cacheEnabled = true →
      (CacheEvent.begin call connected now).PositiveTtl cfg → ¬ call.Covers k)) ∨
    ∃ ttl, call = .setCached k v ttl

variable (connected : Bool)

theorem getCached_spec (cacheKey : String) :
    BeginSpec cfg cache connected now (.getCached cacheKey)
      (cache.getCached cfg connected now cacheKey).1
      (cache.getCached cfg connected now cacheKey).2 := by
  unfold MixinCaching.getCached
  by_cases hdisabled : (!cfg.cacheEnabled) = true
  · rw [if_pos hdisabled]
    exact ⟨nofun, nofun, nofun, fun k v e h => Or.inl ⟨h, fun _ _ => id⟩⟩
  · rw [if_neg hdisabled]
    rcases getL1_eq cache now cacheKey with
      ⟨v, e, hentry, hfound⟩ | ⟨hmiss, hkept⟩
    · rw [hfound]
      refine ⟨nofun, fun w hw => ⟨cacheKey, e, rfl, ?_⟩, nofun, fun k v e h =>
        Or.inl ⟨h, fun _ _ => id⟩⟩
      rw [hentry, Progress.returned.inj hw]
    · generalize cache.getL1 now cacheKey = result at hmiss hkept
      obtain ⟨found, cache'⟩ := result
      obtain rfl : found = none := hmiss
      refine ⟨?_, ?_, nofun, fun k v e h => Or.inl ⟨hkept k v e h, fun _ _ => id⟩⟩
      · cases connected <;> exact nofun
      · cases connected <;> exact nofun

theorem setCached_spec (cacheKey : String) (value : Option Obj) (ttlSeconds : Option ℚ) :
    BeginSpec cfg cache connected now (.setCached cacheKey value ttlSeconds)
      (cache.setCached cfg connected now cacheKey value ttlSeconds).1
      (cache.setCached cfg connected now cacheKey value ttlSeconds).2 := by
  unfold MixinCaching.setCached
  by_cases hdisabled : (!cfg.cacheEnabled) = true
  · rw [if_pos hdisabled]
    have hnot : ¬ cfg.cacheEnabled = true := by simpa using hdisabled
    exact ⟨nofun, nofun, fun k hk henabled => absurd henabled hnot,
      fun k v e h => Or.inl ⟨h, fun henabled => absurd henabled hnot⟩⟩
  rw [if_neg hdisabled]
  dsimp only
  by_cases hskipped : ((cfg.ttl ttlSeconds).any fun ttl => decide (ttl ≤ 0)) = true
  · rw [if_pos hskipped]
    have hnot : ¬ (CacheEvent.begin (.setCached cacheKey value ttlSeconds) connected
        now).PositiveTtl cfg := by
      intro hpositive
      obtain ⟨ttl, httl, hle⟩ := (Option.any_eq_true _ _).mp hskipped
      exact absurd (hpositive ttl httl) (not_lt.mpr (of_decide_eq_true hle))
    exact ⟨nofun, nofun, fun k hk henabled hpositive => absurd hpositive hnot,
      fun k v e h => Or.inl ⟨h, fun henabled hpositive => absurd hpositive hnot⟩⟩
  · rw [if_neg hskipped]
    refine ⟨?_, ?_, fun k hk henabled hpositive hconnected => if_pos hconnected, fun k v e h => ?_⟩
    · cases connected <;> exact nofun
    · cases connected <;> exact nofun
    · rcases update_eq_some h with ⟨hk, hkept⟩ | ⟨rfl, hentry⟩
      · exact Or.inl ⟨hkept, fun _ _ hcovers => hk hcovers.symm⟩
      · exact Or.inr ⟨ttlSeconds, by rw [(Prod.mk.inj (Option.some.inj hentry)).1]⟩

variable (cfg cache now) in
theorem begin_spec (call : CacheCall Obj) :
    BeginSpec cfg cache connected now call (cache.begin cfg connected now call).1
      (cache.begin cfg connected now call).2 := by
  cases call with
  | getCached cacheKey => exact getCached_spec connected cacheKey
  | setCached cacheKey value ttlSeconds => exact setCached_spec connected cacheKey value ttlSeconds
  | invalidateCache cacheKey =>
    unfold MixinCaching.begin MixinCaching.invalidateCache
    refine ⟨?_, ?_, fun k hk henabled hpositive hconnected => if_pos hconnected, fun k v e h => ?_⟩
    · cases connected <;> exact nofun
    · cases connected <;> exact nofun
    · rcases update_eq_some h with ⟨hk, hkept⟩ | ⟨-, hentry⟩
      · exact Or.inl ⟨hkept, fun _ _ hcovers => hk hcovers.symm⟩
      · exact nomatch hentry
  | clearCache =>
    unfold MixinCaching.begin MixinCaching.clearCache
    refine ⟨?_, ?_, fun k hk henabled hpositive hconnected => if_pos hconnected, nofun⟩
    · cases connected <;> exact nofun
    · cases connected <;> exact nofun

variable (cfg cache) in
theorem handleL2Error_spec :
    (cache.handleL2Error cfg).1 ≠ .requested ∧
      (∀ v, (cache.handleL2Error cfg).1 ≠ .returned (some v)) ∧
      (cache.handleL2Error cfg).2.cacheData = cache.cacheData := by
  unfold MixinCaching.handleL2Error MixinCaching.incrementFailureCount
  cases decide (cfg.maxConsecutiveFailures ≤ cache.consecutiveFailures + 1) with
  | false => exact ⟨nofun, nofun, rfl⟩
  | true =>
    dsimp only
    split_ifs
    · exact ⟨nofun, nofun, rfl⟩
    · exact ⟨nofun, nofun, rfl⟩

variable (cfg cache now) in
theorem resume_spec (call : CacheCall Obj) (reply : BackendReply Obj) :
    (cache.resume cfg now call reply).1 ≠ .requested ∧
      (∀ v, (cache.resume cfg now call reply).1 = .returned (some v) → reply = .value (some v)) ∧
      ∀ k v e, (cache.resume cfg now call reply).2.cacheData k = some (v, e) →
        cache.cacheData k = some (v, e) ∨
        ∃ value, v = some value ∧ call = .getCached k ∧ reply = .value (some value) := by
  obtain ⟨hrequested, hvalue, hdata⟩ := handleL2Error_spec cfg cache
  unfold MixinCaching.resume
  split
  · rename_i key value
    refine ⟨nofun, fun v hv => ?_, fun k v e h => ?_⟩
    · rw [Progress.returned.inj hv]
    · rcases update_eq_some h with ⟨-, hkept⟩ | ⟨rfl, hentry⟩
      · exact Or.inl hkept
      · exact Or.inr ⟨value, (Prod.mk.inj (Option.some.inj hentry)).1.symm, rfl, rfl⟩
  · exact ⟨hrequested, fun v hv => absurd hv (hvalue v), fun k v e h => Or.inl (hdata ▸ h)⟩
  · exact ⟨nofun, nofun, fun k v e h => Or.inl h⟩

theorem carryOut_eq_some (hreload : cfg.Reloads) {backend : CacheBackend Obj}
    {call : CacheCall Obj} {k : String} {v : Option Obj}
    (h : call.carryOut cfg backend k = some v) :
    (backend k = some v ∧ ¬ call.Covers k) ∨ ∃ ttl, call = .setCached k v ttl := by
  cases call with
  | getCached key => exact Or.inl ⟨h, id⟩
  | setCached key value ttlSeconds =>
    rcases update_eq_some h with ⟨hk, hkept⟩ | ⟨rfl, hentry⟩
    · exact Or.inl ⟨hkept, fun hcovers => hk hcovers.symm⟩
    · rw [hreload] at hentry
      exact Or.inr ⟨ttlSeconds, by rw [Option.some.inj hentry]⟩
  | invalidateCache key =>
    rcases update_eq_some h with ⟨hk, hkept⟩ | ⟨-, hentry⟩
    · exact Or.inl ⟨hkept, fun hcovers => hk hcovers.symm⟩
    · exact nomatch hentry
  | clearCache => exact nomatch h

end

/-- What the steps before `n` have recorded of a call. -/
structure CallRecord.Recorded (n : ℕ) (r : CallRecord Obj) : Prop where
  started : r.startedAt < n
  settled : ∀ m, r.settledAt = some m → m < n
  pending : r.phase ≠ .requested → r.settledAt.isSome

section
variable {P : String → Prop} {s : CacheLoop Obj}

theorem moves_quiet (hrecorded : ∀ r ∈ s.calls, r.Recorded s.clock) {backend : CacheBackend Obj}
    (hbackend : ∀ k v, backend k = some v → s.backend k = some v) :
    Moves P s { s with backend := backend, clock := s.clock + 1 } where
  clock := rfl
  kept r hr := ⟨r, hr, .same⟩
  calls r hr := Or.inl ⟨r, hr, .same⟩
  cacheData _ _ _ h := Or.inl ⟨h, fun _ r hr hstarted =>
    absurd (hrecorded r hr).started (by omega)⟩
  backend k v h := Or.inl ⟨hbackend k v h, fun _ r hr hsettled =>
    absurd ((hrecorded r hr).settled _ hsettled) (by omega)⟩

variable {task : ℕ}

theorem calls_set {r r' : CallRecord Obj} (hr : s.calls[task]? = some r) (hevolves : Evolves s r r') :
    (∀ b ∈ s.calls, ∃ b' ∈ s.calls.set task r', Evolves s b b') ∧
      ∀ b' ∈ s.calls.set task r', b' = r' ∨ b' ∈ s.calls := by
  obtain ⟨htask, hget⟩ := List.getElem?_eq_some_iff.mp hr
  constructor
  · intro b hb
    obtain ⟨i, hi, rfl⟩ := List.mem_iff_getElem.mp hb
    by_cases hsame : i = task
    · subst hsame
      rw [hget]
      exact ⟨r', List.mem_set htask _, hevolves⟩
    · refine ⟨s.calls[i], List.mem_iff_getElem.mpr ⟨i, by simpa using hi, ?_⟩, .same⟩
      rw [List.getElem_set_ne (Ne.symm hsame)]
  · intro b' hb'
    exact (List.mem_or_eq_of_mem_set hb').symm

section
variable (hrecorded : ∀ r ∈ s.calls, r.Recorded s.clock)
include hrecorded

theorem moves_resumed {r : CallRecord Obj} (hr : s.calls[task]? = some r) (progress : Progress Obj)
    (hevolves : Evolves s r { r with phase := progress.phase s.clock }) {cache : MixinCaching Obj}
    (hcache : ∀ k v e, cache.cacheData k = some (v, e) → s.cache.cacheData k = some (v, e) ∨
      ∃ value, v = some value ∧ r.call = .getCached k ∧ r.phase = .answered (.value (some value)) ∧
        (P k → ∀ b ∈ s.calls, b.call.Covers k →
          ∃ m n, b.settledAt = some m ∧ r.settledAt = some n ∧ m < n)) : Moves P s {
      s with
      cache := cache
      calls := s.calls.set task { r with phase := progress.phase s.clock }
      clock := s.clock + 1 } := by
  have hmem : r ∈ s.calls := List.mem_of_getElem? hr
  obtain ⟨hkept, hcalls⟩ := calls_set hr hevolves
  have hstarted : ∀ b' ∈ s.calls.set task { r with phase := progress.phase s.clock },
      b'.startedAt ≠ s.clock := by
    intro b' hb'
    rcases hcalls b' hb' with rfl | hb'
    · exact (hrecorded r hmem).started.ne
    · exact (hrecorded b' hb').started.ne
  have hsettled : ∀ b' ∈ s.calls.set task { r with phase := progress.phase s.clock },
      b'.settledAt ≠ some s.clock := by
    intro b' hb' heq
    rcases hcalls b' hb' with rfl | hb'
    · exact lt_irrefl _ ((hrecorded r hmem).settled _ heq)
    · exact lt_irrefl _ ((hrecorded b' hb').settled _ heq)
  refine ⟨rfl, hkept, fun b' hb' => ?_, fun k v e h => ?_, fun k v h => ?_⟩
  · rcases hcalls b' hb' with rfl | hb'
    · exact Or.inl ⟨r, hmem, hevolves⟩
    · exact Or.inl ⟨b', hb', .same⟩
  · rcases hcache k v e h with h | ⟨value, hv, hcall, hphase, hcareful⟩
    · exact Or.inl ⟨h, fun _ b' hb' heq => absurd heq (hstarted b' hb')⟩
    · exact Or.inr (Or.inr ⟨r, hmem, value, hv, hcall, hphase, hstarted, hcareful⟩)
  · exact Or.inl ⟨h, fun _ b' hb' heq => absurd heq (hsettled b' hb')⟩

/-- An answer of the backend moves a call on: an outage is careful where there is no value. -/
theorem moves_settle {r : CallRecord Obj}
    (hr : s.calls[task]? = some r) (hphase : r.phase = .requested) {outcome : BackendOutcome}
    (hreload : cfg.Reloads)
    (hcareful : ∀ k, P k → outcome = .fails false → r.call.Covers k → s.backend k = none) :
    Moves P s { s.settle cfg task r outcome with clock := s.clock + 1 } := by
  have hmem : r ∈ s.calls := List.mem_of_getElem? hr
  have hreply : ∀ v, (if outcome = .succeeds then r.call.answer s.backend else .failed)
      = .value (some v) → ∃ k, r.call = .getCached k ∧ s.backend k = some (some v) := by
    intro v hv
    split_ifs at hv
    cases hcall : r.call with
    | getCached k =>
      rw [hcall] at hv
      exact ⟨k, rfl, Option.join_eq_some_iff.mp (BackendReply.value.inj hv)⟩
    | setCached key value ttlSeconds =>
      rw [hcall] at hv
      exact nomatch hv
    | invalidateCache key =>
      rw [hcall] at hv
      exact nomatch hv
    | clearCache =>
      rw [hcall] at hv
      exact nomatch hv
  have hevolves := Evolves.settled (s := s) _ hphase hreply
  obtain ⟨hkept, hcalls⟩ := calls_set hr hevolves
  -- what is settled now is the operation of `r`
  have hsettled : ∀ b' ∈ (s.settle cfg task r outcome).calls, b'.settledAt = some s.clock →
      b'.call = r.call := by
    intro b' hb' heq
    rcases hcalls b' hb' with rfl | hb'
    · rfl
    · exact absurd ((hrecorded b' hb').settled _ heq) (lt_irrefl _)
  refine ⟨rfl, hkept, fun b' hb' => ?_, fun k v e h => ?_, fun k v h => ?_⟩
  · rcases hcalls b' hb' with rfl | hb'
    · exact Or.inl ⟨r, hmem, hevolves⟩
    · exact Or.inl ⟨b', hb', .same⟩
  · refine Or.inl ⟨h, fun _ b' hb' heq => ?_⟩
    rcases hcalls b' hb' with rfl | hb'
    · exact absurd heq (hrecorded r hmem).started.ne
    · exact absurd heq (hrecorded b' hb').started.ne
  · have hstored : (if outcome = .fails false then s.backend
        else r.call.carryOut cfg s.backend) k = some v := h
    split_ifs at hstored with hfails
    · refine Or.inl ⟨hstored, fun hP b' hb' heq hcovers => ?_⟩
      rw [hsettled b' hb' heq] at hcovers
      rw [hcareful k hP hfails hcovers] at hstored
      exact nomatch hstored
    · rcases carryOut_eq_some hreload hstored with ⟨hstored, hnot⟩ | ⟨ttl, hcall⟩
      · exact Or.inl ⟨hstored, fun _ b' hb' heq => hsettled b' hb' heq ▸ hnot⟩
      · exact Or.inr ⟨r, hmem, hphase, ttl, hcall⟩

/-- A call begins: without a connection it is careful where the backend has no value. -/
theorem moves_begin {cfg : CacheConfig Obj} {call : CacheCall Obj} {connected : Bool} {now : ℚ}
    (hcareful : ∀ k, P k → cfg.cacheEnabled = true ∧
      (CacheEvent.begin call connected now).PositiveTtl cfg ∧
      (connected = false → call.Covers k → s.backend k = none)) :
    Moves P s { s.begin cfg call connected now with clock := s.clock + 1 } := by
  have hspec := begin_spec cfg s.cache now connected call
  unfold CacheLoop.begin
  generalize s.cache.begin cfg connected now call = result at hspec
  obtain ⟨progress, cache⟩ := result
  dsimp only at hspec ⊢
  have hbegins := Begins.begin (s := s) call progress hspec.waits hspec.value
  refine ⟨rfl, fun r hr => ⟨r, List.mem_append_left _ hr, .same⟩, fun r' hr' => ?_,
    fun k v e h => ?_, fun k v h => ?_⟩
  · rcases List.mem_append.mp hr' with hr' | hr'
    · exact Or.inl ⟨r', hr', .same⟩
    · rw [List.mem_singleton.mp hr']
      exact Or.inr hbegins
  · rcases hspec.cacheData k v e h with ⟨hkept, hnot⟩ | ⟨ttl, hcall⟩
    · refine Or.inl ⟨hkept, fun hP r' hr' hstarted => ?_⟩
      rcases List.mem_append.mp hr' with hr' | hr'
      · exact absurd hstarted (hrecorded r' hr').started.ne
      · rw [List.mem_singleton.mp hr']
        exact hnot (hcareful k hP).1 (hcareful k hP).2.1
    · exact Or.inr (Or.inl ⟨_, List.mem_append_right _ (List.mem_singleton_self _), rfl, ttl, hcall⟩)
  · refine Or.inl ⟨h, fun hP r' hr' hsettled hcovers => ?_⟩
    rcases List.mem_append.mp hr' with hr' | hr'
    · exact lt_irrefl _ ((hrecorded r' hr').settled _ hsettled)
    · rw [List.mem_singleton.mp hr'] at hsettled hcovers
      obtain ⟨henabled, hpositive, hempty⟩ := hcareful k hP
      cases connected with
      | true =>
        rw [hspec.requests k hcovers henabled hpositive rfl] at hsettled
        exact nomatch hsettled
      | false =>
        rw [hempty rfl hcovers] at h
        exact nomatch h

/-- Every event is a move, where the configuration reloads and the event is careful. -/
theorem moves_step {cfg : CacheConfig Obj} {event : CacheEvent Obj}
    (hreload : cfg.Reloads)
    (hcareful : ∀ k, P k → cfg.cacheEnabled = true ∧ event.PositiveTtl cfg ∧ Careful k s event) :
    Moves P s (s.step cfg event) := by
  have hquiet : Moves P s { s with clock := s.clock + 1 } :=
    moves_quiet hrecorded fun _ _ h => h
  unfold CacheLoop.step
  cases event with
  | begin call connected now => exact moves_begin hrecorded hcareful
  | settle task outcome =>
    unfold CacheLoop.act
    dsimp only
    cases hr : s.calls[task]? with
    | none => exact hquiet
    | some r =>
      dsimp only
      cases hphase : r.phase with
      | requested =>
        refine moves_settle hrecorded hr hphase hreload fun k hP houtcome => ?_
        have hstep := (hcareful k hP).2.2
        rw [houtcome] at hstep
        exact hstep r hr hphase
      | answered reply => exact hquiet
      | closing => exact hquiet
      | returned v f => exact hquiet
  | resume task now =>
    unfold CacheLoop.act
    dsimp only
    cases hr : s.calls[task]? with
    | none => exact hquiet
    | some r =>
      dsimp only
      cases hphase : r.phase with
      | requested => exact hquiet
      | returned v f => exact hquiet
      | closing =>
        refine moves_resumed hrecorded hr (.returned none)
          (.resumed _ (by rw [hphase]; exact nofun) (by rw [hphase]; exact nofun) nofun nofun)
          fun k v e h => Or.inl h
      | answered reply =>
        -- a task that resumes stores what the backend has answered
        obtain ⟨hrequested, hvalue, hdata⟩ := resume_spec cfg s.cache now
          r.call reply
        refine moves_resumed hrecorded hr _ (.resumed _ (by rw [hphase]; exact nofun)
          (by rw [hphase]; exact nofun) hrequested fun v hv => ?_) fun k v e h => ?_
        · rw [hphase, hvalue v hv]
        · rcases hdata k v e h with hkept | ⟨value, hv, hcall, hreply⟩
          · exact Or.inl hkept
          · subst hreply
            exact Or.inr ⟨value, hv, hcall, hphase, fun hP =>
              (hcareful k hP).2.2 r value hr hcall hphase⟩
  | drop key =>
    refine moves_quiet hrecorded fun k v h => ?_
    rcases update_eq_some h with ⟨-, hkept⟩ | ⟨-, hnone⟩
    · exact hkept
    · exact nomatch hnone

end

end

/-! ## Where values come from -/

/-- The value of the key comes from a `set_cached` that started before `f`; in a careful run no call
that covers the key, among those with `W`, began behind it. -/
def Fresh (P : String → Prop) (s : CacheLoop Obj) (k : String) (v : Option Obj) (f : ℕ)
    (W : CallRecord Obj → Prop) : Prop :=
  ∃ a ∈ s.calls, (∃ ttl, a.call = .setCached k v ttl) ∧ a.startedAt < f ∧
    (P k → ∀ b ∈ s.calls, b.call.Covers k → W b → ¬ Before a b)

/-- The operation of `b` was settled before that of `g`. -/
def SettledBefore (b g : CallRecord Obj) : Prop :=
  ∃ m n, b.settledAt = some m ∧ g.settledAt = some n ∧ m < n

/-- What holds behind every step. -/
structure Traced (P : String → Prop) (s : CacheLoop Obj) : Prop where
  recorded : ∀ r ∈ s.calls, r.Recorded s.clock
  cacheData : ∀ k v e, s.cache.cacheData k = some (v, e) → Fresh P s k v s.clock fun _ => True
  backend : ∀ k v, s.backend k = some v → Fresh P s k v s.clock fun b => b.settledAt.isSome
  answered : ∀ g ∈ s.calls, ∀ k v, g.call = .getCached k → g.phase = .answered (.value (some v)) →
    Fresh P s k (some v) s.clock fun b => SettledBefore b g ∨ Before b g
  returned : ∀ g ∈ s.calls, ∀ k v f, g.call = .getCached k → g.phase = .returned (some v) f →
    Fresh P s k (some v) f fun b => Before b g

section
variable {P : String → Prop} {s s' : CacheLoop Obj}

theorem recorded_step (hm : Moves P s s') (hrecorded : ∀ r ∈ s.calls, r.Recorded s.clock) :
    ∀ r' ∈ s'.calls, r'.Recorded s'.clock := by
  intro r' hr'
  rw [hm.clock]
  rcases hm.calls r' hr' with ⟨r, hr, hevolves⟩ | hbegins
  · obtain ⟨hstarted, hsettled, hpending⟩ := hrecorded r hr
    refine ⟨by rw [hevolves.startedAt_eq]; omega, fun m hm' => ?_, fun hphase => ?_⟩
    · rcases hevolves.settledAt hm' with hm' | rfl
      · have := hsettled m hm'
        omega
      · omega
    · cases hevolves with
      | same => exact hpending hphase
      | settled reply hrequested hreply => rfl
      | resumed progress hnot hopen hprogress hvalue => exact hpending hnot
  · refine ⟨by rw [hbegins.startedAt_eq]; omega, fun m hm' => ?_, fun hphase => ?_⟩
    · have := hbegins.settledAt_eq hm'
      omega
    · cases hbegins with
      | begin call progress hprogress hvalue =>
        cases progress with
        | returned v => rfl
        | requested => exact absurd rfl hphase
        | closing => exact absurd rfl hprogress

variable {k : String} {v : Option Obj}

section
variable (hm : Moves P s s')
include hm

/-- A value stays fresh, if the calls that count are among those that did. -/
theorem Fresh.moves (hrecorded : ∀ r ∈ s.calls, r.Recorded s.clock) {f f' : ℕ}
    {W W' : CallRecord Obj → Prop} (h : Fresh P s k v f W) (hf : f ≤ f')
    (hW : P k → ∀ b' ∈ s'.calls, b'.call.Covers k → W' b' →
      ∃ b ∈ s.calls, Evolves s b b' ∧ W b) : Fresh P s' k v f' W' := by
  obtain ⟨a, ha, ⟨ttl, hcall⟩, hlt, hfresh⟩ := h
  obtain ⟨a', ha', hevolves⟩ := hm.kept a ha
  refine ⟨a', ha', ⟨ttl, hevolves.call_eq.trans hcall⟩, by rw [hevolves.startedAt_eq]; omega,
    fun hP b' hb' hcovers hW' hbefore => ?_⟩
  obtain ⟨b, hb, hb'evolves, hWb⟩ := hW hP b' hb' hcovers hW'
  have hbefore : Before a b' :=
    hbefore.of_evolves hevolves (by rw [hb'evolves.startedAt_eq]; exact (hrecorded b hb).started.le)
  obtain ⟨w, n, hphase, hn⟩ := hbefore
  refine hfresh hP b hb (hb'evolves.call_eq ▸ hcovers) hWb ⟨w, n, hphase, ?_⟩
  rwa [hb'evolves.startedAt_eq] at hn

theorem Evolves.not_before (hrecorded : ∀ r ∈ s.calls, r.Recorded s.clock)
    {a a' b' : CallRecord Obj} (hevolves : Evolves s a a') (hopen : ∀ v f, a.phase ≠ .returned v f)
    (hb' : b' ∈ s'.calls) : ¬ Before a' b' := by
  have hlt := (recorded_step hm hrecorded b' hb').started
  rw [hm.clock] at hlt
  intro hbefore
  obtain ⟨v, f, hphase, -⟩ := hbefore.of_evolves hevolves (by omega)
  exact hopen v f hphase

variable {W : CallRecord Obj → Prop}

theorem fresh_of_requested (hrecorded : ∀ r ∈ s.calls, r.Recorded s.clock)
    {a : CallRecord Obj} (ha : a ∈ s.calls)
    (hphase : a.phase = .requested) {ttl : Option ℚ} (hcall : a.call = .setCached k v ttl) :
    Fresh P s' k v s'.clock W := by
  obtain ⟨a', ha', hevolves⟩ := hm.kept a ha
  have hlt := (recorded_step hm hrecorded a' ha').started
  refine ⟨a', ha', ⟨ttl, hevolves.call_eq.trans hcall⟩, hlt, fun _ b' hb' _ _ => ?_⟩
  exact hevolves.not_before hm hrecorded (by rw [hphase]; exact nofun) hb'

theorem fresh_of_begins (hrecorded : ∀ r ∈ s.calls, r.Recorded s.clock)
    {a' : CallRecord Obj} (ha' : a' ∈ s'.calls)
    (hstarted : a'.startedAt = s.clock) {ttl : Option ℚ} (hcall : a'.call = .setCached k v ttl) :
    Fresh P s' k v s'.clock W := by
  refine ⟨a', ha', ⟨ttl, hcall⟩, (recorded_step hm hrecorded a' ha').started,
    fun _ b' hb' _ _ hbefore => ?_⟩
  obtain ⟨w, f, hphase, hlt⟩ := hbefore
  have hb'lt := (recorded_step hm hrecorded b' hb').started
  rw [hm.clock] at hb'lt
  rcases hm.calls a' ha' with ⟨a, ha, hevolves⟩ | hbegins
  · have := (hrecorded a ha).started
    rw [hevolves.startedAt_eq] at hstarted
    omega
  · have := hbegins.returned_eq hphase
    omega

theorem exists_of_before {b' g : CallRecord Obj} (hb' : b' ∈ s'.calls) (hg : g.startedAt ≤ s.clock)
    (hbefore : Before b' g) : ∃ b ∈ s.calls, Evolves s b b' ∧ Before b g := by
  rcases hm.calls b' hb' with ⟨b, hb, hevolves⟩ | hbegins
  · exact ⟨b, hb, hevolves, hbefore.of_evolves hevolves hg⟩
  · obtain ⟨w, f, hphase, hlt⟩ := hbefore
    have := hbegins.returned_eq hphase
    omega

theorem exists_of_settled {b' : CallRecord Obj} (hb' : b' ∈ s'.calls) {m : ℕ}
    (hsettled : b'.settledAt = some m) (hne : m ≠ s.clock) :
    ∃ b ∈ s.calls, Evolves s b b' ∧ b.settledAt = some m := by
  rcases hm.calls b' hb' with ⟨b, hb, hevolves⟩ | hbegins
  · exact ⟨b, hb, hevolves, (hevolves.settledAt hsettled).resolve_right hne⟩
  · exact absurd (hbegins.settledAt_eq hsettled) hne

end

/-- An answer stays fresh when the system takes a step. -/
theorem Traced.answered_step (h : Traced P s) (hm : Moves P s s') {g' : CallRecord Obj}
    (hg' : g' ∈ s'.calls) {v : Obj} (hcall : g'.call = .getCached k)
    (hphase : g'.phase = .answered (.value (some v))) :
    Fresh P s' k (some v) s'.clock fun b => SettledBefore b g' ∨ Before b g' := by
  have hclock : s.clock ≤ s'.clock := by
    rw [hm.clock]
    omega
  rcases hm.calls g' hg' with ⟨g, hg, hevolves⟩ | hbegins
  · have hstarted := (h.recorded g hg).started
    cases hevolves with
    | same =>
      refine (h.answered g' hg k v hcall hphase).moves hm h.recorded hclock fun _ b' hb' _ hW => ?_
      rcases hW with ⟨m, n, hb'settled, hgsettled, hlt⟩ | hbefore
      · have hn := (h.recorded g' hg).settled n hgsettled
        obtain ⟨b, hb, hevolves, hbsettled⟩ := exists_of_settled hm hb' hb'settled (by omega)
        exact ⟨b, hb, hevolves, Or.inl ⟨m, n, hbsettled, hgsettled, hlt⟩⟩
      · obtain ⟨b, hb, hevolves, hbefore⟩ := exists_of_before hm hb' hstarted.le hbefore
        exact ⟨b, hb, hevolves, Or.inr hbefore⟩
    | settled reply hrequested hreply =>
      -- the answer is what the backend has stored
      have hreply' : reply = .value (some v) := CallPhase.answered.inj hphase
      obtain ⟨k', hcall', hstored⟩ := hreply v hreply'
      obtain rfl : k' = k := CacheCall.getCached.inj (hcall'.symm.trans hcall)
      refine (h.backend k' (some v) hstored).moves hm h.recorded hclock fun _ b' hb' _ hW => ?_
      rcases hW with ⟨m, n, hb'settled, hgsettled, hlt⟩ | hbefore
      · have hn : s.clock = n := Option.some.inj hgsettled
        obtain ⟨b, hb, hevolves, hbsettled⟩ := exists_of_settled hm hb' hb'settled (by omega)
        exact ⟨b, hb, hevolves, by rw [hbsettled]; rfl⟩
      · obtain ⟨b, hb, hevolves, w, f, hbphase, -⟩ := exists_of_before hm hb'
          (show g.startedAt ≤ s.clock by omega) hbefore
        exact ⟨b, hb, hevolves, (h.recorded b hb).pending (by rw [hbphase]; exact nofun)⟩
    | resumed progress hnot hopen hprogress hvalue => cases progress <;> exact nomatch hphase
  · cases hbegins with
    | begin call progress hprogress hvalue => cases progress <;> exact nomatch hphase

/-- A value that was returned stays what it was when the system takes a step. -/
theorem Traced.returned_step (h : Traced P s) (hm : Moves P s s') {g' : CallRecord Obj}
    (hg' : g' ∈ s'.calls) {v : Obj} {f : ℕ} (hcall : g'.call = .getCached k)
    (hphase : g'.phase = .returned (some v) f) : Fresh P s' k (some v) f fun b => Before b g' := by
  rcases hm.calls g' hg' with ⟨g, hg, hevolves⟩ | hbegins
  · have hstarted := (h.recorded g hg).started
    have hearlier : ∀ b' ∈ s'.calls, Before b' g' → ∃ b ∈ s.calls, Evolves s b b' ∧ Before b g := by
      intro b' hb' hbefore
      obtain ⟨b, hb, hevolves', w, n, hbphase, hlt⟩ := exists_of_before hm hb'
        (by rw [hevolves.startedAt_eq]; omega) hbefore
      exact ⟨b, hb, hevolves', w, n, hbphase, hevolves.startedAt_eq ▸ hlt⟩
    cases hevolves with
    | same =>
      exact (h.returned g' hg k v f hcall hphase).moves hm h.recorded le_rfl
        fun _ b' hb' _ hbefore => hearlier b' hb' hbefore
    | settled reply hrequested hreply => exact nomatch hphase
    | resumed progress hnot hopen hprogress hvalue =>
      obtain ⟨rfl, rfl⟩ := Progress.of_phase hphase
      refine (h.answered g hg k v hcall (hvalue v rfl)).moves hm h.recorded le_rfl
        fun _ b' hb' _ hbefore => ?_
      obtain ⟨b, hb, hevolves', hbefore⟩ := hearlier b' hb' hbefore
      exact ⟨b, hb, hevolves', Or.inr hbefore⟩
  · cases hbegins with
    | begin call progress hprogress hvalue =>
      obtain ⟨rfl, rfl⟩ := Progress.of_phase hphase
      obtain ⟨k', e, hcall', hentry⟩ := hvalue v rfl
      obtain rfl : k' = k := CacheCall.getCached.inj (hcall'.symm.trans hcall)
      refine (h.cacheData k' (some v) e hentry).moves hm h.recorded le_rfl
        fun _ b' hb' _ hbefore => ?_
      obtain ⟨b, hb, hevolves, -⟩ := exists_of_before hm hb' le_rfl hbefore
      exact ⟨b, hb, hevolves, trivial⟩

theorem Traced.step (h : Traced P s) (hm : Moves P s s') : Traced P s' := by
  have hclock : s.clock ≤ s'.clock := by
    rw [hm.clock]
    omega
  refine ⟨recorded_step hm h.recorded, fun k v e hentry => ?_, fun k v hentry => ?_,
    fun g' hg' k v => h.answered_step hm hg', fun g' hg' k v f => h.returned_step hm hg'⟩
  · rcases hm.cacheData k v e hentry with ⟨hkept, hnot⟩ | ⟨a', ha', hstarted, ttl, hcall⟩ |
      ⟨g, hg, value, rfl, hcall, hphase, hquiet, hcareful⟩
    · refine (h.cacheData k v e hkept).moves hm h.recorded hclock fun hP b' hb' hcovers _ => ?_
      rcases hm.calls b' hb' with ⟨b, hb, hevolves⟩ | hbegins
      · exact ⟨b, hb, hevolves, trivial⟩
      · exact absurd hcovers (hnot hP b' hb' hbegins.startedAt_eq)
    · exact fresh_of_begins hm h.recorded ha' hstarted hcall
    · refine (h.answered g hg k value hcall hphase).moves hm h.recorded hclock
        fun hP b' hb' hcovers _ => ?_
      rcases hm.calls b' hb' with ⟨b, hb, hevolves⟩ | hbegins
      · exact ⟨b, hb, hevolves, Or.inl (hcareful hP b hb (hevolves.call_eq ▸ hcovers))⟩
      · exact absurd hbegins.startedAt_eq (hquiet b' hb')
  · rcases hm.backend k v hentry with ⟨hkept, hnot⟩ | ⟨a, ha, hphase, ttl, hcall⟩
    · refine (h.backend k v hkept).moves hm h.recorded hclock fun hP b' hb' hcovers hsettled => ?_
      obtain ⟨m, hsettled⟩ := Option.isSome_iff_exists.mp hsettled
      have hne : m ≠ s.clock := by
        rintro rfl
        exact hnot hP b' hb' hsettled hcovers
      obtain ⟨b, hb, hevolves, hbsettled⟩ := exists_of_settled hm hb' hsettled hne
      exact ⟨b, hb, hevolves, by rw [hbsettled]; rfl⟩
    · exact fresh_of_requested hm h.recorded ha hphase hcall

end

/-! ## Runs -/

section
variable {cfg : CacheConfig Obj} {s : CacheLoop Obj} {events : List (CacheEvent Obj)}

theorem Traced.run {P : String → Prop} (h : Traced P s)
    (hreload : cfg.Reloads) (hcareful : ∀ k, P k → cfg.cacheEnabled = true ∧
      (∀ event ∈ events, event.PositiveTtl cfg) ∧ CarefulRun cfg k s events) : Traced P (events.foldl (CacheLoop.step cfg) s) := by
  induction events generalizing s with
  | nil => exact h
  | cons event events ih =>
    refine ih (h.step (moves_step h.recorded hreload fun k hP => ?_)) fun k hP => ?_
    · obtain ⟨henabled, hpositive, hsteps⟩ := hcareful k hP
      exact ⟨henabled, hpositive event List.mem_cons_self, hsteps.1⟩
    · obtain ⟨henabled, hpositive, hsteps⟩ := hcareful k hP
      exact ⟨henabled, fun e he => hpositive e (List.mem_cons_of_mem _ he), hsteps.2⟩

/-- Every `get_cached` has returned nothing. -/
def Missing (s : CacheLoop Obj) : Prop :=
  ∀ g ∈ s.calls, ∀ k, g.call = .getCached k → ∃ f, g.phase = .returned none f

/-- A call that has not returned is no `get_cached`, and stays none. -/
theorem Missing.set (h : Missing s) {task : ℕ} {r r' : CallRecord Obj}
    (hr : s.calls[task]? = some r) (hopen : ∀ f, r.phase ≠ .returned none f)
    (hcall : r'.call = r.call) : Missing { s with calls := s.calls.set task r' } := by
  intro g hg k hget
  rcases List.mem_or_eq_of_mem_set hg with hg | rfl
  · exact h g hg k hget
  · obtain ⟨f, hphase⟩ := h r (List.mem_of_getElem? hr) k (hcall.symm.trans hget)
    exact absurd hphase (hopen f)

/-- With the cache disabled, nothing is ever found. -/
theorem Missing.step (hdisabled : cfg.cacheEnabled = false) (h : Missing s)
    (event : CacheEvent Obj) : Missing (s.step cfg event) := by
  unfold CacheLoop.step CacheLoop.act
  cases event with
  | begin call connected now =>
    intro g hg k hget
    rcases List.mem_append.mp hg with hg | hg
    · exact h g hg k hget
    · obtain rfl := List.mem_singleton.mp hg
      obtain rfl : call = .getCached k := hget
      refine ⟨s.clock, ?_⟩
      show ((s.cache.getCached cfg connected now k).1).phase s.clock = _
      rw [MixinCaching.getCached, hdisabled]
      rfl
  | settle task outcome =>
    dsimp only
    cases hr : s.calls[task]? with
    | none => exact h
    | some r =>
      dsimp only
      cases hphase : r.phase with
      | requested => exact h.set hr (by rw [hphase]; exact nofun) rfl
      | answered reply => exact h
      | closing => exact h
      | returned v f => exact h
  | resume task now =>
    dsimp only
    cases hr : s.calls[task]? with
    | none => exact h
    | some r =>
      dsimp only
      cases hphase : r.phase with
      | requested => exact h
      | returned v f => exact h
      | closing => exact h.set hr (by rw [hphase]; exact nofun) rfl
      | answered reply => exact h.set hr (by rw [hphase]; exact nofun) rfl
  | drop key => exact h

theorem Missing.run (hdisabled : cfg.cacheEnabled = false) (h : Missing s) :
    Missing (events.foldl (CacheLoop.step cfg) s) := by
  induction events generalizing s with
  | nil => exact h
  | cons event events ih => exact ih (h.step hdisabled event)

end

/-! ## Examples -/

end OmnibaseCore.Caching
