import OmnibaseCore.Caching.ComputeCache

/-!
# Capacity and eviction

What a cache holds follows from the calls: `held` is the latest put of a key, unless it has been
evicted, cleared or found expired, with its last access, its hits and its place in the order of
insertion. The entries of a cache are what it holds (`Tracked`). A put makes room in a full cache
before it looks whether its key is there, so a call keeps to the capacity law exactly if it does
not overwrite a key of a full cache: `respectsCapacity_iff`.
-/

namespace OmnibaseCore.Caching

variable {Obj : Type}

/-! ## What a cache holds -/

/-- The latest put of a key, and what has happened to it since. -/
structure Held (Obj : Type) where
  value : Obj
  expiry : ℤ
  /-- The reading of `monotonic()` at its last access -/
  lastAccess : ℚ
  hitCount : ℕ
  /-- Its place in the order of insertion -/
  insertion : ℕ

def Held.metric (policy : EnumCacheEvictionPolicy) (h : Held Obj) : ℚ :=
  match policy with
  | .lru => h.lastAccess
  | .lfu => h.hitCount
  | .fifo => h.insertion

def stores (settings : ComputeCacheSettings) (record : ComputeCacheCall Obj × CacheStep Obj) :
    Bool :=
  match record.1 with
  | .put .. => decide (0 < settings.maxSize) && record.2.reply.isOk
  | .get .. | .clear => false

/-- The number of values that have been put into the cache. -/
def insertions (settings : ComputeCacheSettings)
    (past : List (ComputeCacheCall Obj × CacheStep Obj)) : ℕ :=
  past.countP (stores settings)

/-- The time to live that a put asks for. -/
def ComputeCacheSettings.ttlOf (settings : ComputeCacheSettings) (ttlMinutes : Option ℤ) : ℤ :=
  match ttlMinutes with
  | none => settings.ttl
  | some minutes => minutes * microsecondsPerMinute

/-- The latest put of a key, if it has been neither evicted nor cleared nor found expired. The
latest call comes first. -/
def held (settings : ComputeCacheSettings) :
    List (ComputeCacheCall Obj × CacheStep Obj) → String → Option (Held Obj)
  | [], _ => none
  | (.clear, _) :: _, _ => none
  | (.get cacheKey now monotonic, _) :: past, key =>
    if key = cacheKey then
      match held settings past key with
      | none => none
      | some h =>
        if h.expiry < now then none
        else some { h with lastAccess := monotonic, hitCount := h.hitCount + 1 }
    else held settings past key
  | (.put cacheKey value ttlMinutes now monotonic, step) :: past, key =>
    if key = cacheKey ∧ stores settings (.put cacheKey value ttlMinutes now monotonic, step) then
      some {
        value := value
        expiry := now + settings.ttlOf ttlMinutes
        lastAccess := monotonic
        hitCount := 0
        insertion := insertions settings past + 1 }
    else if step.evicted = some key then none
    else held settings past key

/-! ## The capacity law -/

structure StepLaw (settings : ComputeCacheSettings) (run : CacheRun Obj)
    (call : ComputeCacheCall Obj) : Prop where
  capacity : ((call.step run.cache).after.cache.size : ℤ) ≤ max settings.maxSize 0
  /-- A put of a key that is there changes no other entry and evicts nothing -/
  overwrite : ∀ key value ttlMinutes now monotonic,
    call = .put key value ttlMinutes now monotonic → run.cache.cache.contains key = true →
      (call.step run.cache).evicted = none ∧
        ∀ k ≠ key, (call.step run.cache).after.cache.get k = run.cache.cache.get k
  /-- A put of a new key removes at most one other entry, one that the policy puts first, and none
  unless the cache is full -/
  insertion : ∀ key value ttlMinutes now monotonic,
    call = .put key value ttlMinutes now monotonic → run.cache.cache.contains key = false →
      (∀ k ≠ key, (call.step run.cache).after.cache.get k =
        if (call.step run.cache).evicted = some k then none else run.cache.cache.get k) ∧
      ∀ k, (call.step run.cache).evicted = some k →
        settings.maxSize ≤ run.cache.cache.size ∧
          ∃ h, held settings run.past k = some h ∧
            ∀ k' h', held settings run.past k' = some h' →
              h.metric settings.evictionPolicy ≤ h'.metric settings.evictionPolicy
  /-- A get returns what is held, if it has not expired -/
  read : ∀ key now monotonic, call = .get key now monotonic →
    (call.step run.cache).reply = .ok (match held settings run.past key with
      | none => none
      | some h => if h.expiry < now then none else some h.value)
  /-- Every request that is counted is a hit or a miss -/
  counted : settings.enableStats = true →
    (call.step run.cache).after.stats.hits + (call.step run.cache).after.stats.misses =
      (call.step run.cache).after.stats.totalRequests

def RespectsCapacity (settings : ComputeCacheSettings) (calls : List (ComputeCacheCall Obj)) :
    Prop :=
  ∀ before call after, calls = before ++ call :: after →
    StepLaw settings (runCache settings before) call

def SparesFull (settings : ComputeCacheSettings) (run : CacheRun Obj) :
    ComputeCacheCall Obj → Prop
  | .put cacheKey .. =>
    run.cache.cache.contains cacheKey = true → (run.cache.cache.size : ℤ) < settings.maxSize
  | .get .. | .clear => True

/-! ## Statistics -/

namespace ModelComputeCache

section
variable (cache : ModelComputeCache Obj) (f : CacheStats → CacheStats)

@[simp] theorem count_cache : (cache.count f).cache = cache.cache := by
  unfold count
  split_ifs <;> rfl

@[simp] theorem count_insertOrder : (cache.count f).insertOrder = cache.insertOrder := by
  unfold count
  split_ifs <;> rfl

@[simp] theorem count_settings :
    (cache.count f).toComputeCacheSettings = cache.toComputeCacheSettings := by
  unfold count
  split_ifs <;> rfl

theorem count_stats (h : cache.enableStats = true) : (cache.count f).stats = f cache.stats := by
  unfold count
  rw [if_pos h]

end

def Counted (cache : ModelComputeCache Obj) : Prop :=
  cache.enableStats = true → cache.stats.hits + cache.stats.misses = cache.stats.totalRequests

variable {cache : ModelComputeCache Obj}

/-- A request is counted, and then a hit or a miss. -/
theorem Counted.request (h : cache.Counted)
    (entries : PyDict String (CachedResult Obj)) {f : CacheStats → CacheStats}
    (hcount : ∀ stats, (f stats).hits + (f stats).misses = stats.hits + stats.misses + 1)
    (htotal : ∀ stats, (f stats).totalRequests = stats.totalRequests) :
    (count { cache.count fun stats => { stats with totalRequests := stats.totalRequests + 1 } with
      cache := entries } f).Counted := by
  by_cases henabled : cache.enableStats = true
  · intro _
    have hbefore := h henabled
    unfold count
    rw [if_pos henabled]
    dsimp only
    rw [if_pos henabled]
    dsimp only
    rw [hcount, htotal]
    dsimp only
    omega
  · intro hafter
    simp [henabled] at hafter

/-! ## Get -/

section
variable (cache : ModelComputeCache Obj) (cacheKey : String) (now : ℤ) (monotonic : ℚ)

def hitMetric (accessMetric : ℚ) : ℚ :=
  match cache.evictionPolicy with
  | .lru => monotonic
  | .lfu => intMetric accessMetric + 1
  | .fifo => accessMetric

/-- What a get leaves of the entry of its key. -/
def afterHit (entry : CachedResult Obj) : Option (CachedResult Obj) :=
  if entry.expiry < now then none
  else some { entry with accessMetric := cache.hitMetric monotonic entry.accessMetric }

/-- What `get` does. -/
structure GetSpec (step : CacheStep Obj) : Prop where
  reply : step.reply = .ok (match cache.cache.get cacheKey with
    | none => none
    | some entry => if entry.expiry < now then none else some entry.value)
  evicted : step.evicted = none
  entry_self : step.after.cache.get cacheKey =
    (cache.cache.get cacheKey).bind (cache.afterHit now monotonic)
  entry_of_ne : ∀ k ≠ cacheKey, step.after.cache.get k = cache.cache.get k
  settings : step.after.toComputeCacheSettings = cache.toComputeCacheSettings
  insertOrder : step.after.insertOrder = cache.insertOrder
  size_le : step.after.cache.size ≤ cache.cache.size
  counted : cache.Counted → step.after.Counted

variable {entry : CachedResult Obj}

section
variable {cache : ModelComputeCache Obj} {cacheKey : String}
variable (h : cache.cache.get cacheKey = some entry)
include h

theorem size_setItem_of_get (e : CachedResult Obj) :
    (cache.cache.setItem cacheKey e).size = cache.cache.size := by
  rw [PyDict.size_setItem, if_pos]
  unfold PyDict.contains
  rw [h]
  rfl

theorem get_touch (monotonic : ℚ) (k : String) :
    (cache.touch cacheKey entry monotonic).get k =
      if k = cacheKey then
        some { entry with accessMetric := cache.hitMetric monotonic entry.accessMetric }
      else cache.cache.get k := by
  unfold touch hitMetric
  cases cache.evictionPolicy with
  | lru => exact PyDict.get_setItem _ _ _ k
  | lfu => exact PyDict.get_setItem _ _ _ k
  | fifo =>
    split_ifs with hk
    · rw [hk]
      exact h
    · rfl

theorem size_touch (monotonic : ℚ) :
    (cache.touch cacheKey entry monotonic).size = cache.cache.size := by
  unfold touch
  cases cache.evictionPolicy with
  | lru => exact size_setItem_of_get h _
  | lfu => exact size_setItem_of_get h _
  | fifo => rfl

end

@[simp] theorem hitMetric_count (f : CacheStats → CacheStats) (accessMetric : ℚ) :
    (cache.count f).hitMetric monotonic accessMetric = cache.hitMetric monotonic accessMetric := by
  unfold hitMetric
  rw [count_settings]

/-- `get` evicts nothing, and changes no entry but that of its key. -/
theorem get_spec : GetSpec cache cacheKey now monotonic (cache.get cacheKey now monotonic) := by
  unfold get
  dsimp only
  rw [count_cache]
  cases hget : cache.cache.get cacheKey with
  | none =>
    -- a miss changes nothing but the statistics
    dsimp only
    refine ⟨by rw [hget], rfl, by simp [hget], by simp, by simp, by simp, by simp, ?_⟩
    intro hcounted
    exact hcounted.request _ (by simp; omega) (by simp)
  | some entry =>
    dsimp only
    split_ifs with hexpired
    · -- an entry that has expired is deleted
      refine ⟨by rw [hget]; simp [hexpired], rfl, ?_, ?_, by simp, by simp, ?_, ?_⟩
      · simp [hget, afterHit, hexpired, PyDict.get_delItem]
      · intro k hk
        simp [PyDict.get_delItem, hk]
      · have hsize := PyDict.size_delItem cache.cache cacheKey (by simp [PyDict.contains, hget])
        simp
        omega
      · intro hcounted
        exact hcounted.request _ (by simp; omega) (by simp)
    · -- a hit changes the metric of its entry
      have hget' : (cache.count fun stats =>
          { stats with totalRequests := stats.totalRequests + 1 }).cache.get cacheKey =
            some entry := by simpa using hget
      refine ⟨by rw [hget]; simp [hexpired], rfl, ?_, ?_, by simp, by simp, ?_, ?_⟩
      · rw [hget, count_cache]
        dsimp only
        rw [get_touch hget']
        simp [afterHit, hexpired]
      · intro k hk
        simp [get_touch hget', hk]
      · simp [size_touch hget']
      · intro hcounted
        exact hcounted.request _ (by simp; omega) (by simp)

end

/-! ## Eviction -/

theorem evictKey_eq_some {key : String} (h : cache.evictKey = some key) :
    ∃ entry, cache.cache.get key = some entry ∧
      ∀ k e, cache.cache.get k = some e → entry.accessMetric ≤ e.accessMetric := by
  unfold evictKey at h
  rw [Option.map_eq_some_iff] at h
  obtain ⟨⟨key', entry⟩, hmin, hkey⟩ := h
  rw [show key' = key from hkey] at hmin
  refine ⟨entry, (PyDict.get_eq_some_iff _ _ _).mpr (List.argmin_mem hmin), ?_⟩
  intro k e he
  exact List.le_of_mem_argmin (f := fun e => e.2.accessMetric)
    ((PyDict.get_eq_some_iff _ _ _).mp he) hmin

theorem evictKey_eq_none (h : cache.evictKey = none) :
    cache.cache.size = 0 := by
  unfold evictKey at h
  rw [Option.map_eq_none_iff, List.argmin_eq_none] at h
  unfold PyDict.size
  rw [h]
  rfl

/-- What making room does to a cache that may hold entries. -/
structure RoomSpec (cache : ModelComputeCache Obj) (room : Option String × ModelComputeCache Obj) :
    Prop where
  /-- A key is evicted exactly if the cache is full -/
  full_iff : room.1.isSome = true ↔ cache.maxSize ≤ cache.cache.size
  minimal : ∀ key, room.1 = some key → ∃ entry, cache.cache.get key = some entry ∧
    ∀ k e, cache.cache.get k = some e → entry.accessMetric ≤ e.accessMetric
  entry : ∀ k, room.2.cache.get k = if room.1 = some k then none else cache.cache.get k
  settings : room.2.toComputeCacheSettings = cache.toComputeCacheSettings
  insertOrder : room.2.insertOrder = cache.insertOrder
  size_lt : (cache.cache.size : ℤ) ≤ cache.maxSize → (room.2.cache.size : ℤ) < cache.maxSize
  counted : cache.Counted → room.2.Counted

/-- A full cache loses an entry with the least metric, and nothing else changes. -/
theorem makeRoom_spec (hpos : 0 < cache.maxSize) :
    RoomSpec cache cache.makeRoom := by
  unfold makeRoom
  split_ifs with hfull
  · unfold evict
    cases hkey : cache.evictKey with
    | none =>
      -- a full cache has an entry
      have hempty := evictKey_eq_none hkey
      omega
    | some key =>
      have hmin := evictKey_eq_some hkey
      refine ⟨by simp [hfull], ?_, ?_, by simp, by simp, ?_, ?_⟩
      · intro key' hkey'
        rw [← Option.some.inj hkey']
        exact hmin
      · intro k
        simp [PyDict.get_delItem, eq_comm]
      · intro hle
        obtain ⟨entry, hentry, -⟩ := hmin
        have hsize := PyDict.size_delItem cache.cache key (by simp [PyDict.contains, hentry])
        simp
        omega
      · intro hcounted henabled
        rw [count_settings] at henabled
        rw [count_stats _ _ henabled]
        exact hcounted henabled
  · refine ⟨by simp [hfull], ?_, by simp, rfl, rfl, fun _ => by simpa using hfull, fun h => h⟩
    intro key hkey
    cases hkey

/-! ## Put -/

theorem put_of_nonpos (h : cache.maxSize ≤ 0) (cacheKey : String)
    (value : Obj) (ttlMinutes : Option ℤ) (now : ℤ) (monotonic : ℚ) :
    cache.put cacheKey value ttlMinutes now monotonic = { reply := .ok none, after := cache } :=
  if_pos h

def newMetric (cache : ModelComputeCache Obj) (monotonic : ℚ) : ℚ :=
  match cache.evictionPolicy with
  | .lru => monotonic
  | .lfu => 1
  | .fifo => (cache.insertOrder + 1 : ℕ)

section
variable (cacheKey : String) (value : Obj) (expiry : ℤ)
  (monotonic : ℚ)

theorem store_cache : (cache.store cacheKey value expiry monotonic).cache =
    cache.cache.setItem cacheKey ⟨value, expiry, cache.newMetric monotonic⟩ := by
  unfold store newMetric
  cases cache.evictionPolicy <;> rfl

@[simp] theorem store_settings : (cache.store cacheKey value expiry monotonic).toComputeCacheSettings
    = cache.toComputeCacheSettings := by
  unfold store
  split <;> rfl

@[simp] theorem store_stats :
    (cache.store cacheKey value expiry monotonic).stats = cache.stats := by
  unfold store
  split <;> rfl

theorem store_insertOrder (h : cache.evictionPolicy = .fifo) :
    (cache.store cacheKey value expiry monotonic).insertOrder = cache.insertOrder + 1 := by
  unfold store
  rw [h]

end

theorem expiry_eq {ttlMinutes : Option ℤ} {now expiry : ℤ}
    (h : (do addTimedelta now (← cache.putTtl ttlMinutes)) = .ok expiry) :
    expiry = now + cache.ttlOf ttlMinutes := by
  obtain ⟨ttl, httl, hadd⟩ := bind_eq_ok h
  have hsum : expiry = now + ttl := by
    unfold addTimedelta at hadd
    split_ifs at hadd
    exact (Except.ok.inj hadd).symm
  rw [hsum]
  unfold putTtl at httl
  unfold ComputeCacheSettings.ttlOf
  cases ttlMinutes with
  | none =>
    rw [← Except.ok.inj httl]
  | some minutes =>
    dsimp only [timedelta] at httl
    split_ifs at httl
    rw [← Except.ok.inj httl]

/-- What `put` does to a cache that may hold entries. -/
structure PutSpec (cache : ModelComputeCache Obj) (cacheKey : String) (value : Obj)
    (ttlMinutes : Option ℤ) (now : ℤ) (monotonic : ℚ) (step : CacheStep Obj) : Prop where
  full_iff : step.evicted.isSome = true ↔ cache.maxSize ≤ cache.cache.size
  minimal : ∀ key, step.evicted = some key → ∃ entry, cache.cache.get key = some entry ∧
    ∀ k e, cache.cache.get k = some e → entry.accessMetric ≤ e.accessMetric
  entry : ∀ k, step.after.cache.get k =
    if k = cacheKey ∧ step.reply.isOk = true then
      some ⟨value, now + cache.ttlOf ttlMinutes, cache.newMetric monotonic⟩
    else if step.evicted = some k then none
    else cache.cache.get k
  settings : step.after.toComputeCacheSettings = cache.toComputeCacheSettings
  insertOrder : cache.evictionPolicy = .fifo → step.after.insertOrder =
    if step.reply.isOk = true then cache.insertOrder + 1 else cache.insertOrder
  size_le : (cache.cache.size : ℤ) ≤ cache.maxSize →
    (step.after.cache.size : ℤ) ≤ cache.maxSize
  counted : cache.Counted → step.after.Counted

/-- `put` makes room if the cache is full, and then enters the value. -/
theorem put_spec (hpos : 0 < cache.maxSize) (cacheKey : String)
    (value : Obj) (ttlMinutes : Option ℤ) (now : ℤ) (monotonic : ℚ) :
    PutSpec cache cacheKey value ttlMinutes now monotonic
      (cache.put cacheKey value ttlMinutes now monotonic) := by
  have hroom := makeRoom_spec hpos
  unfold put
  rw [if_neg (not_le.mpr hpos)]
  generalize cache.makeRoom = room at hroom ⊢
  obtain ⟨evicted, after⟩ := room
  dsimp only
  cases hexpiry : (do addTimedelta now (← after.putTtl ttlMinutes)) with
  | error e =>
    -- the put raises, and what it has evicted is gone
    refine ⟨hroom.full_iff, hroom.minimal, ?_, hroom.settings, ?_, ?_, hroom.counted⟩
    · intro k
      have hentry := hroom.entry k
      simpa [Except.isOk, Except.toBool] using hentry
    · intro _
      simpa [Except.isOk, Except.toBool] using hroom.insertOrder
    · intro hle
      exact (hroom.size_lt hle).le
  | ok expiry =>
    have hsettings := hroom.settings
    have hmetric : after.newMetric monotonic = cache.newMetric monotonic := by
      unfold newMetric
      rw [hsettings, hroom.insertOrder]
    refine ⟨hroom.full_iff, hroom.minimal, ?_, ?_, ?_, ?_, ?_⟩
    · intro k
      dsimp only
      rw [store_cache, PyDict.get_setItem, expiry_eq hexpiry, hmetric, hsettings, hroom.entry k]
      simp [Except.isOk, Except.toBool]
    · rw [store_settings]
      exact hsettings
    · intro hfifo
      dsimp only
      rw [store_insertOrder _ _ _ _ (by rw [hsettings]; exact hfifo), hroom.insertOrder]
      rfl
    · intro hle
      have hlt := hroom.size_lt hle
      dsimp only at hlt ⊢
      rw [store_cache, PyDict.size_setItem]
      split_ifs
      · exact hlt.le
      · push_cast
        omega
    · intro hcounted henabled
      dsimp only at henabled ⊢
      rw [store_settings] at henabled
      rw [store_stats]
      exact hroom.counted hcounted henabled

end ModelComputeCache

/-! ## Entries and what is held -/

def Held.entry (policy : EnumCacheEvictionPolicy) (h : Held Obj) : CachedResult Obj where
  value := h.value
  expiry := h.expiry
  accessMetric :=
    match policy with
    | .lru => h.lastAccess
    | .lfu => (h.hitCount + 1 : ℕ)
    | .fifo => h.insertion

theorem metric_le_metric {policy : EnumCacheEvictionPolicy} {h h' : Held Obj}
    (hle : (h.entry policy).accessMetric ≤ (h'.entry policy).accessMetric) :
    h.metric policy ≤ h'.metric policy := by
  cases policy with
  | lru => exact hle
  | lfu =>
    have hcast : ((h.hitCount + 1 : ℕ) : ℚ) ≤ ((h'.hitCount + 1 : ℕ) : ℚ) := hle
    show (h.hitCount : ℚ) ≤ (h'.hitCount : ℚ)
    push_cast at hcast
    linarith
  | fifo => exact hle

/-- The entries of a cache in use are what it holds. -/
structure Tracked (settings : ComputeCacheSettings) (run : CacheRun Obj) : Prop where
  settings_eq : run.cache.toComputeCacheSettings = settings
  entry : ∀ key, run.cache.cache.get key =
    (held settings run.past key).map (Held.entry settings.evictionPolicy)
  insertOrder : settings.evictionPolicy = .fifo →
    run.cache.insertOrder = insertions settings run.past
  size_le : (run.cache.cache.size : ℤ) ≤ max settings.maxSize 0
  counted : run.cache.Counted

section
variable {settings : ComputeCacheSettings} {run : CacheRun Obj}

theorem tracked_create (settings : ComputeCacheSettings) :
    Tracked settings ({ cache := .create settings } : CacheRun Obj) where
  settings_eq := rfl
  entry _ := rfl
  insertOrder _ := rfl
  size_le := le_max_right _ _
  counted _ := rfl

theorem intMetric_natCast (n : ℕ) : ModelComputeCache.intMetric n = n := by
  unfold ModelComputeCache.intMetric
  rw [Rat.num_natCast, Rat.den_natCast]
  exact Int.tdiv_one _

theorem afterHit_entry (hrun : Tracked settings run) (h : Held Obj) (now : ℤ) (monotonic : ℚ) :
    run.cache.afterHit now monotonic (h.entry settings.evictionPolicy) =
      (if h.expiry < now then none
        else some { h with lastAccess := monotonic, hitCount := h.hitCount + 1 }).map
          (Held.entry settings.evictionPolicy) := by
  unfold ModelComputeCache.afterHit ModelComputeCache.hitMetric
  rw [hrun.settings_eq]
  by_cases hexpired : h.expiry < now
  · rw [if_pos hexpired]
    exact if_pos hexpired
  · rw [if_neg hexpired]
    refine (if_neg hexpired).trans ?_
    cases hpolicy : settings.evictionPolicy with
    | lru => rfl
    | lfu =>
      show some (CachedResult.mk h.value h.expiry
        (ModelComputeCache.intMetric ((h.hitCount + 1 : ℕ) : ℚ) + 1)) = _
      rw [intMetric_natCast]
      simp [Held.entry]
    | fifo => rfl

theorem Tracked.next_get (hrun : Tracked settings run) (key : String) (now : ℤ) (monotonic : ℚ) :
    Tracked settings (run.next (.get key now monotonic)) := by
  have hget := ModelComputeCache.get_spec run.cache key now monotonic
  refine ⟨hget.settings.trans hrun.settings_eq, ?_, ?_, ?_, hget.counted hrun.counted⟩
  · intro k
    show ((run.cache.get key now monotonic).after.cache.get k : Option _) =
      Option.map _ (if k = key then _ else _)
    by_cases hk : k = key
    · rw [hk, hget.entry_self, hrun.entry, if_pos rfl]
      cases held settings run.past key with
      | none => rfl
      | some h => exact afterHit_entry hrun h now monotonic
    · rw [hget.entry_of_ne k hk, hrun.entry, if_neg hk]
  · intro hfifo
    refine hget.insertOrder.trans ((hrun.insertOrder hfifo).trans ?_)
    exact (List.countP_cons_of_neg (by simp [stores])).symm
  · have hsize := hget.size_le
    have hle := hrun.size_le
    show ((run.cache.get key now monotonic).after.cache.size : ℤ) ≤ _
    omega

theorem Tracked.next_clear (hrun : Tracked settings run) :
    Tracked settings (run.next .clear) := by
  refine ⟨?_, ?_, ?_, ?_, ?_⟩
  · exact (ModelComputeCache.count_settings _ _).trans hrun.settings_eq
  · intro k
    show (ModelComputeCache.count _ _).cache.get k = none
    rw [ModelComputeCache.count_cache]
    rfl
  · intro hfifo
    show (ModelComputeCache.count _ _).insertOrder = _
    rw [ModelComputeCache.count_insertOrder]
    refine (hrun.insertOrder hfifo).trans ?_
    exact (List.countP_cons_of_neg (by simp [stores])).symm
  · show ((ModelComputeCache.count _ _).cache.size : ℤ) ≤ _
    rw [ModelComputeCache.count_cache]
    exact le_max_right _ _
  · intro henabled
    show (ModelComputeCache.count _ _).stats.hits + (ModelComputeCache.count _ _).stats.misses =
      (ModelComputeCache.count _ _).stats.totalRequests
    have henabled' : (ModelComputeCache.count { run.cache with cache := PyDict.empty }
        fun _ => {}).enableStats = true := henabled
    rw [ModelComputeCache.count_settings] at henabled'
    rw [ModelComputeCache.count_stats _ _ henabled']
    rfl

variable {key : String}

theorem stores_eq {value : Obj} {ttlMinutes : Option ℤ} {now : ℤ} {monotonic : ℚ}
    {step : CacheStep Obj} (h : 0 < settings.maxSize) :
    stores settings (.put key value ttlMinutes now monotonic, step) = step.reply.isOk := by
  unfold stores
  simp [h]

/-- The history of a run keeps track of the cache over a `put`. -/
theorem Tracked.next_put (hrun : Tracked settings run) (key : String) (value : Obj)
    (ttlMinutes : Option ℤ) (now : ℤ) (monotonic : ℚ) :
    Tracked settings (run.next (.put key value ttlMinutes now monotonic)) := by
  have hmaxSize : run.cache.maxSize = settings.maxSize := by rw [hrun.settings_eq]
  by_cases hpos : 0 < settings.maxSize
  · have hput := ModelComputeCache.put_spec (hmaxSize ▸ hpos) key value ttlMinutes now monotonic
    refine ⟨hput.settings.trans hrun.settings_eq, ?_, ?_, ?_, hput.counted hrun.counted⟩
    · intro k
      show ((run.cache.put key value ttlMinutes now monotonic).after.cache.get k : Option _) =
        Option.map _ (if k = key ∧ stores settings (.put key value ttlMinutes now monotonic,
          run.cache.put key value ttlMinutes now monotonic) = true then _ else _)
      rw [hput.entry, stores_eq hpos, hrun.entry]
      by_cases hstored : k = key ∧
          (run.cache.put key value ttlMinutes now monotonic).reply.isOk = true
      · -- the new entry is that of a key without hits, the last in the order of insertion
        rw [if_pos hstored, if_pos hstored, hrun.settings_eq]
        unfold ModelComputeCache.newMetric
        rw [hrun.settings_eq]
        cases hpolicy : settings.evictionPolicy with
        | lru => rfl
        | lfu => simp [Held.entry]
        | fifo =>
          dsimp only
          rw [hrun.insertOrder hpolicy]
          rfl
      · rw [if_neg hstored, if_neg hstored]
        show _ = Option.map _ (if (run.cache.put key value ttlMinutes now monotonic).evicted =
          some k then none else held settings run.past k)
        split_ifs <;> rfl
    · intro hfifo
      refine (hput.insertOrder (by rw [hrun.settings_eq]; exact hfifo)).trans ?_
      show _ = List.countP _ ((.put key value ttlMinutes now monotonic,
        run.cache.put key value ttlMinutes now monotonic) :: run.past)
      rw [hrun.insertOrder hfifo, List.countP_cons, stores_eq hpos]
      split_ifs <;> rfl
    · have hle := hrun.size_le
      have hsize := hput.size_le
      show ((run.cache.put key value ttlMinutes now monotonic).after.cache.size : ℤ) ≤ _
      omega
  · have hnone := ModelComputeCache.put_of_nonpos (hmaxSize ▸ not_lt.mp hpos) key value ttlMinutes
      now monotonic
    have hstores : ∀ step, stores settings (.put key value ttlMinutes now monotonic, step) =
        false := by
      intro step
      simp [stores, hpos]
    have hafter : (run.next (.put key value ttlMinutes now monotonic)).cache = run.cache :=
      congrArg CacheStep.after hnone
    refine ⟨by rw [hafter]; exact hrun.settings_eq, ?_, ?_, by rw [hafter]; exact hrun.size_le,
      by rw [hafter]; exact hrun.counted⟩
    · intro k
      rw [hafter, hrun.entry]
      show _ = Option.map _ (if k = key ∧ stores settings (.put key value ttlMinutes now monotonic,
        _) = true then _ else if (run.cache.put key value ttlMinutes now monotonic).evicted = some k
          then none else held settings run.past k)
      rw [hstores, hnone]
      simp
    · intro hfifo
      rw [hafter, hrun.insertOrder hfifo]
      exact (List.countP_cons_of_neg (by simp [hstores])).symm

theorem Tracked.next (hrun : Tracked settings run) (call : ComputeCacheCall Obj) :
    Tracked settings (run.next call) := by
  cases call with
  | get key now monotonic => exact hrun.next_get key now monotonic
  | put key value ttlMinutes now monotonic =>
    exact hrun.next_put key value ttlMinutes now monotonic
  | clear => exact hrun.next_clear

theorem tracked_runCache (settings : ComputeCacheSettings) (calls : List (ComputeCacheCall Obj)) :
    Tracked settings (runCache settings calls) := by
  unfold runCache
  generalize hstart : ({ cache := .create settings } : CacheRun Obj) = start
  have htracked : Tracked settings start := hstart ▸ tracked_create settings
  clear hstart
  induction calls generalizing start with
  | nil => exact htracked
  | cons call calls ih => exact ih _ (htracked.next call)

/-! ## The capacity law -/

theorem pos_of_contains (hrun : Tracked settings run) (hkey : run.cache.cache.contains key = true) :
    0 < run.cache.maxSize := by
  have hsize := PyDict.size_delItem run.cache.cache key hkey
  have hle := hrun.size_le
  rw [hrun.settings_eq]
  omega

/-- A key that is put again evicts nothing if and only if the cache is not full. -/
theorem evicted_eq_none_iff (hrun : Tracked settings run)
    (hkey : run.cache.cache.contains key = true) (value : Obj) (ttlMinutes : Option ℤ) (now : ℤ)
    (monotonic : ℚ) : (run.cache.put key value ttlMinutes now monotonic).evicted = none ↔
      (run.cache.cache.size : ℤ) < settings.maxSize := by
  have hput := ModelComputeCache.put_spec (pos_of_contains hrun hkey) key value ttlMinutes now
    monotonic
  rw [← Option.not_isSome_iff_eq_none, hput.full_iff, hrun.settings_eq, not_le]

theorem get_put_of_ne (cache : ModelComputeCache Obj) {key k : String} (hk : k ≠ key) (value : Obj)
    (ttlMinutes : Option ℤ) (now : ℤ) (monotonic : ℚ) :
    (cache.put key value ttlMinutes now monotonic).after.cache.get k =
      if (cache.put key value ttlMinutes now monotonic).evicted = some k then none
      else cache.cache.get k := by
  by_cases hpos : 0 < cache.maxSize
  · rw [(ModelComputeCache.put_spec hpos key value ttlMinutes now monotonic).entry,
      if_neg fun h => hk h.1]
  · rw [ModelComputeCache.put_of_nonpos (not_lt.mp hpos)]
    rfl

theorem minimal_of_evicted (hrun : Tracked settings run) {key k : String} {value : Obj}
    {ttlMinutes : Option ℤ} {now : ℤ} {monotonic : ℚ}
    (hk : (run.cache.put key value ttlMinutes now monotonic).evicted = some k) :
    settings.maxSize ≤ run.cache.cache.size ∧
      ∃ h, held settings run.past k = some h ∧
        ∀ k' h', held settings run.past k' = some h' →
          h.metric settings.evictionPolicy ≤ h'.metric settings.evictionPolicy := by
  by_cases hpos : 0 < run.cache.maxSize
  · have hput := ModelComputeCache.put_spec hpos key value ttlMinutes now monotonic
    have hfull := hput.full_iff.mp (by rw [hk]; rfl)
    rw [hrun.settings_eq] at hfull
    refine ⟨hfull, ?_⟩
    obtain ⟨entry, hentry, hmin⟩ := hput.minimal k hk
    rw [hrun.entry, Option.map_eq_some_iff] at hentry
    obtain ⟨h, hheld, rfl⟩ := hentry
    refine ⟨h, hheld, fun k' h' hheld' => metric_le_metric (hmin k' _ ?_)⟩
    rw [hrun.entry, hheld']
    rfl
  · rw [ModelComputeCache.put_of_nonpos (not_lt.mp hpos)] at hk
    exact (nomatch hk)

theorem get_reply (hrun : Tracked settings run) (key : String) (now : ℤ) (monotonic : ℚ) :
    (run.cache.get key now monotonic).reply = .ok (match held settings run.past key with
      | none => none
      | some h => if h.expiry < now then none else some h.value) := by
  rw [(ModelComputeCache.get_spec run.cache key now monotonic).reply, hrun.entry]
  cases held settings run.past key <;> rfl

/-- In every run the cache is within its capacity, every request that is counted is a hit or a
miss, and a get returns what is held. -/
theorem runCache_law (settings : ComputeCacheSettings) (calls : List (ComputeCacheCall Obj)) :
    let run := runCache settings calls
    (run.cache.cache.size : ℤ) ≤ max settings.maxSize 0 ∧
    (settings.enableStats = true →
      run.cache.stats.hits + run.cache.stats.misses = run.cache.stats.totalRequests) ∧
    ∀ key now monotonic, (run.cache.get key now monotonic).reply =
      .ok (match held settings run.past key with
        | none => none
        | some h => if h.expiry < now then none else some h.value) := by
  intro run
  have hrun := tracked_runCache settings calls
  refine ⟨hrun.size_le, fun hstats => hrun.counted ?_, get_reply hrun⟩
  rw [hrun.settings_eq]
  exact hstats

/-- A call keeps the law unless it puts a key that a full cache already has. -/
theorem stepLaw_iff (hrun : Tracked settings run) (call : ComputeCacheCall Obj) :
    StepLaw settings run call ↔ SparesFull settings run call := by
  have hnext := hrun.next call
  constructor
  · intro hlaw
    cases call with
    | get key now monotonic => trivial
    | clear => trivial
    | put key value ttlMinutes now monotonic =>
      intro hpresent
      exact (evicted_eq_none_iff hrun hpresent value ttlMinutes now monotonic).mp
        (hlaw.overwrite key value ttlMinutes now monotonic rfl hpresent).1
  · intro hspares
    refine ⟨hnext.size_le, ?_, ?_, ?_, fun henabled => hnext.counted ?_⟩
    · intro key value ttlMinutes now monotonic hcall hpresent
      subst hcall
      have hnone := (evicted_eq_none_iff hrun hpresent value ttlMinutes now monotonic).mpr
        (hspares hpresent)
      refine ⟨hnone, fun k hk => ?_⟩
      show (run.cache.put key value ttlMinutes now monotonic).after.cache.get k = _
      rw [get_put_of_ne _ hk, hnone]
      rfl
    · intro key value ttlMinutes now monotonic hcall _
      subst hcall
      exact ⟨fun k hk => get_put_of_ne _ hk value ttlMinutes now monotonic,
        fun k hk => minimal_of_evicted hrun hk⟩
    · intro key now monotonic hcall
      subst hcall
      exact get_reply hrun key now monotonic
    · rw [hnext.settings_eq]
      exact henabled

/-- The calls of a run keep to the capacity law exactly if none of them overwrites a key of a full
cache. -/
theorem respectsCapacity_iff (settings : ComputeCacheSettings)
    (calls : List (ComputeCacheCall Obj)) :
    RespectsCapacity settings calls ↔
      ∀ before call after, calls = before ++ call :: after →
        SparesFull settings (runCache settings before) call := by
  unfold RespectsCapacity
  simp only [stepLaw_iff (tracked_runCache settings _)]

def twoEntries : ComputeCacheSettings where
  maxSize := 2
  ttl := 30 * microsecondsPerMinute

/-- Two keys, and a new value for the second. -/
def refreshSecond : List (ComputeCacheCall ℤ) :=
  [.put "a" 1 none 0 0, .put "b" 2 none 1 1, .put "b" 3 none 2 2]

/-- The new value of the second key drives the first out. -/
theorem refreshSecond_not_respectsCapacity : ¬ RespectsCapacity twoEntries refreshSecond := by
  intro hlaw
  have hspared := ((hlaw [.put "a" 1 none 0 0, .put "b" 2 none 1 1] (.put "b" 3 none 2 2) []
    rfl).overwrite "b" 3 none 2 2 rfl (by decide +kernel)).2 "a" (by decide)
  revert hspared
  decide +kernel

end

end OmnibaseCore.Caching
