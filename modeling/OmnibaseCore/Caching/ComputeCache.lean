import OmnibaseCore.Python.Basic
import OmnibaseCore.Python.PyDict

/-!
# The cache of computations

`ModelComputeCache`. An instant of `datetime.now()` is a number of microseconds since the first
that a `datetime` can be, and a reading of `monotonic()` a number of seconds. A call reads each
clock at most once.
-/

namespace OmnibaseCore.Caching

/-! ## Instants -/

/-- `timedelta.resolution` in a minute. -/
def microsecondsPerMinute : ℤ := 60000000

/-- The first instant after `datetime.max`. -/
def datetimeEnd : ℤ := 3652059 * 86400000000

/-- `timedelta(microseconds=...)`. -/
def timedelta (microseconds : ℤ) : Except PyException ℤ :=
  let days := microseconds / 86400000000
  if days < -2 ^ 31 ∨ 2 ^ 31 ≤ days then
    .error (.overflowError "Python int too large to convert to C int")
  else if 999999999 < |days| then
    .error (.overflowError ("days=" ++ toString days ++ "; must have magnitude <= 999999999"))
  else .ok microseconds

/-- `now + ttl`. -/
def addTimedelta (now ttl : ℤ) : Except PyException ℤ :=
  if now + ttl < 0 ∨ datetimeEnd ≤ now + ttl then
    .error (.overflowError "date value out of range")
  else .ok (now + ttl)

/-! ## Caches -/

inductive EnumCacheEvictionPolicy
  | lru
  | lfu
  | fifo

structure CacheStats where
  hits : ℕ := 0
  misses : ℕ := 0
  evictions : ℕ := 0
  expirations : ℕ := 0
  totalRequests : ℕ := 0

structure ComputeCacheSettings where
  maxSize : ℤ := 1000
  ttl : ℤ
  evictionPolicy : EnumCacheEvictionPolicy := .lru
  enableStats : Bool := true

/-- An entry: the access metric is a reading of `monotonic()`, or a number of accesses, or the
place in the order of insertion. -/
structure CachedResult (Obj : Type) where
  value : Obj
  expiry : ℤ
  accessMetric : ℚ
deriving DecidableEq

structure ModelComputeCache (Obj : Type) extends ComputeCacheSettings where
  cache : PyDict String (CachedResult Obj) := {}
  insertOrder : ℕ := 0
  stats : CacheStats := {}

/-- What a call does: what it returns or raises, the key that it evicts, and the cache that it
leaves. -/
structure CacheStep (Obj : Type) where
  reply : Except PyException (Option Obj)
  evicted : Option String := none
  after : ModelComputeCache Obj

variable {Obj : Type}

namespace ModelComputeCache

def create (settings : ComputeCacheSettings) : ModelComputeCache Obj where
  toComputeCacheSettings := settings

def init (maxSize defaultTtlMinutes : ℤ) (ttlSeconds : Option ℤ)
    (evictionPolicy : EnumCacheEvictionPolicy) (enableStats : Bool) :
    Except PyException (ModelComputeCache Obj) := do
  let ttl ←
    match ttlSeconds with
    | some seconds => timedelta (seconds * 1000000)
    | none => timedelta (defaultTtlMinutes * microsecondsPerMinute)
  return create {
    maxSize := maxSize
    ttl := ttl
    evictionPolicy := evictionPolicy
    enableStats := enableStats }

/-- `self._stats[...] += 1`, with the statistics on. -/
def count (cache : ModelComputeCache Obj) (f : CacheStats → CacheStats) : ModelComputeCache Obj :=
  if cache.enableStats then { cache with stats := f cache.stats } else cache

/-- `int(access_metric)`. -/
def intMetric (accessMetric : ℚ) : ℤ := accessMetric.num.tdiv accessMetric.den

/-- The entries of `get` after a hit, with the access metric updated. -/
def touch (cache : ModelComputeCache Obj) (cacheKey : String) (entry : CachedResult Obj)
    (monotonic : ℚ) : PyDict String (CachedResult Obj) :=
  match cache.evictionPolicy with
  | .lru => cache.cache.setItem cacheKey { entry with accessMetric := monotonic }
  | .lfu =>
    cache.cache.setItem cacheKey { entry with accessMetric := intMetric entry.accessMetric + 1 }
  | .fifo => cache.cache

def get (cache : ModelComputeCache Obj) (cacheKey : String) (now : ℤ) (monotonic : ℚ) :
    CacheStep Obj :=
  let cache := cache.count fun stats => { stats with totalRequests := stats.totalRequests + 1 }
  match cache.cache.get cacheKey with
  | none =>
    { reply := .ok none
      after := cache.count fun stats => { stats with misses := stats.misses + 1 } }
  | some entry =>
    if entry.expiry < now then
      let cache := { cache with cache := cache.cache.delItem cacheKey }
      { reply := .ok none
        after := cache.count fun stats =>
          { stats with misses := stats.misses + 1, expirations := stats.expirations + 1 } }
    else
      let cache := { cache with cache := cache.touch cacheKey entry monotonic }
      { reply := .ok (some entry.value)
        after := cache.count fun stats => { stats with hits := stats.hits + 1 } }

/-- The key that `_evict` removes. -/
def evictKey (cache : ModelComputeCache Obj) : Option String :=
  (cache.cache.entries.argmin fun e => e.2.accessMetric).map Prod.fst

/-- `_evict`. The three policies compare the metric of their entries in the same way. -/
def evict (cache : ModelComputeCache Obj) : ModelComputeCache Obj :=
  match cache.evictKey with
  | none => cache
  | some evictKey =>
    let cache := { cache with cache := cache.cache.delItem evictKey }
    cache.count fun stats => { stats with evictions := stats.evictions + 1 }

def putTtl (cache : ModelComputeCache Obj) (ttlMinutes : Option ℤ) : Except PyException ℤ :=
  match ttlMinutes with
  | none => .ok cache.ttl
  | some minutes => timedelta (minutes * microsecondsPerMinute)

/-- What a put does to make room: the key that it evicts, and the cache without it. -/
def makeRoom (cache : ModelComputeCache Obj) : Option String × ModelComputeCache Obj :=
  if cache.maxSize ≤ cache.cache.size then (cache.evictKey, cache.evict) else (none, cache)

/-- The entry of `put`, with its first access metric. -/
def store (cache : ModelComputeCache Obj) (cacheKey : String) (value : Obj) (expiry : ℤ)
    (monotonic : ℚ) : ModelComputeCache Obj :=
  match cache.evictionPolicy with
  | .lru => { cache with cache := cache.cache.setItem cacheKey ⟨value, expiry, monotonic⟩ }
  | .lfu => { cache with cache := cache.cache.setItem cacheKey ⟨value, expiry, 1⟩ }
  | .fifo =>
    let insertOrder := cache.insertOrder + 1
    { cache with
      insertOrder := insertOrder
      cache := cache.cache.setItem cacheKey ⟨value, expiry, insertOrder⟩ }

def put (cache : ModelComputeCache Obj) (cacheKey : String) (value : Obj) (ttlMinutes : Option ℤ)
    (now : ℤ) (monotonic : ℚ) : CacheStep Obj :=
  if cache.maxSize ≤ 0 then { reply := .ok none, after := cache }
  else
    let (evicted, cache) := cache.makeRoom
    match (do addTimedelta now (← cache.putTtl ttlMinutes)) with
    | .error e => { reply := .error e, evicted := evicted, after := cache }
    | .ok expiry =>
      { reply := .ok none
        evicted := evicted
        after := cache.store cacheKey value expiry monotonic }

def clear (cache : ModelComputeCache Obj) : CacheStep Obj :=
  let cache := { cache with cache := PyDict.empty }
  { reply := .ok none
    after := cache.count fun _ => {} }

end ModelComputeCache

/-! ## Runs -/

/-- A call, with the readings of the two clocks. -/
inductive ComputeCacheCall (Obj : Type)
  | get (cacheKey : String) (now : ℤ) (monotonic : ℚ)
  | put (cacheKey : String) (value : Obj) (ttlMinutes : Option ℤ) (now : ℤ) (monotonic : ℚ)
  | clear

namespace ComputeCacheCall

def step (cache : ModelComputeCache Obj) : ComputeCacheCall Obj → CacheStep Obj
  | get cacheKey now monotonic => cache.get cacheKey now monotonic
  | put cacheKey value ttlMinutes now monotonic =>
    cache.put cacheKey value ttlMinutes now monotonic
  | clear => cache.clear

end ComputeCacheCall

/-- A cache in use, with the calls so far and what they did, the latest first. -/
structure CacheRun (Obj : Type) where
  past : List (ComputeCacheCall Obj × CacheStep Obj) := []
  cache : ModelComputeCache Obj

def CacheRun.next (run : CacheRun Obj) (call : ComputeCacheCall Obj) : CacheRun Obj where
  past := (call, call.step run.cache) :: run.past
  cache := (call.step run.cache).after

def runCache (settings : ComputeCacheSettings) (calls : List (ComputeCacheCall Obj)) :
    CacheRun Obj :=
  calls.foldl CacheRun.next { cache := .create settings }

end OmnibaseCore.Caching
