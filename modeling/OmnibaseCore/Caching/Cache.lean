import OmnibaseCore.Python.Basic

/-!
# The two levels of a cache

`MixinCaching` on an event loop. A call runs until it waits for the backend (or for its `close`);
what the backend does, and when the call goes on, is decided from outside. The backend stores what
it is given until it is deleted or dropped, and hands it back as it can be read again; its
operations may fail, before or after they have been carried out, and it may be disconnected at any
call.
-/

namespace OmnibaseCore.Caching

/-- A call. A cached object may be `None`, which is how a miss is reported as well. -/
inductive CacheCall (Obj : Type)
  | getCached (cacheKey : String)
  | setCached (cacheKey : String) (value : Option Obj) (ttlSeconds : Option ℚ)
  | invalidateCache (cacheKey : String)
  | clearCache
deriving DecidableEq

/-- What is fixed for an instance. -/
structure CacheConfig (Obj : Type) where
  cacheEnabled : Bool := true
  defaultTtlSeconds : Option ℚ := none
  maxConsecutiveFailures : ℕ := 3
  /-- `hasattr(self._cache_backend, "close")` -/
  hasClose : Bool := true
  /-- What the backend hands back of an object, such as `json.loads(json.dumps(v, default=str))` -/
  reload : Option Obj → Option Obj := id

/-- `MixinCaching`: the first level, a value and its expiry for each key, and the failures of the
second level in a row. -/
structure MixinCaching (Obj : Type) where
  cacheData : String → Option (Option Obj × Option ℚ) := fun _ => none
  consecutiveFailures : ℕ := 0

/-- What the second level stores, as it can be read again. -/
abbrev CacheBackend (Obj : Type) := String → Option (Option Obj)

inductive BackendReply (Obj : Type)
  | value (v : Option Obj)
  | done
  | failed
deriving DecidableEq

/-- How far a call has come when it hands over. -/
inductive Progress (Obj : Type)
  | returned (value : Option Obj)
  /-- it waits for an operation of the backend -/
  | requested
  /-- it waits for `close()` -/
  | closing

variable {Obj : Type}

/-! ## The first level -/

def isExpired (now : ℚ) (expiry : Option ℚ) : Bool :=
  match expiry with
  | none => false
  | some expiry => expiry < now

/-- `ttl_seconds if ttl_seconds is not None else self._default_ttl_seconds`. -/
def CacheConfig.ttl (cfg : CacheConfig Obj) (ttlSeconds : Option ℚ) : Option ℚ :=
  ttlSeconds <|> cfg.defaultTtlSeconds

def CacheConfig.computeExpiry (cfg : CacheConfig Obj) (now : ℚ) (ttlSeconds : Option ℚ) : Option ℚ :=
  (cfg.ttl ttlSeconds).map fun ttl => now + ttl

namespace MixinCaching

def getL1 (cache : MixinCaching Obj) (now : ℚ) (cacheKey : String) :
    Option (Option Obj) × MixinCaching Obj :=
  match cache.cacheData cacheKey with
  | none => (none, cache)
  | some (value, expiry) =>
    if isExpired now expiry then
      (none, { cache with cacheData := Function.update cache.cacheData cacheKey none })
    else (some value, cache)

def setL1 (cfg : CacheConfig Obj) (cache : MixinCaching Obj) (now : ℚ) (cacheKey : String)
    (value : Option Obj) (ttlSeconds : Option ℚ) : MixinCaching Obj :=
  { cache with
    cacheData := Function.update cache.cacheData cacheKey
      (some (value, cfg.computeExpiry now ttlSeconds)) }

def resetFailureCount (cache : MixinCaching Obj) : MixinCaching Obj :=
  { cache with consecutiveFailures := 0 }

def incrementFailureCount (cfg : CacheConfig Obj) (cache : MixinCaching Obj) :
    Bool × MixinCaching Obj :=
  (decide (cfg.maxConsecutiveFailures ≤ cache.consecutiveFailures + 1),
    { cache with consecutiveFailures := cache.consecutiveFailures + 1 })

/-- `_handle_l2_error`, up to where it waits for `close()` in `_attempt_backend_cleanup`. -/
def handleL2Error (cfg : CacheConfig Obj) (cache : MixinCaching Obj) :
    Progress Obj × MixinCaching Obj :=
  match cache.incrementFailureCount cfg with
  | (false, cache) => (.returned none, cache)
  | (true, cache) => (if cfg.hasClose then .closing else .returned none, cache.resetFailureCount)

/-! ## Calls, up to where they wait -/

def getCached (cfg : CacheConfig Obj) (cache : MixinCaching Obj) (connected : Bool) (now : ℚ)
    (cacheKey : String) : Progress Obj × MixinCaching Obj :=
  if !cfg.cacheEnabled then (.returned none, cache)
  else
    match cache.getL1 now cacheKey with
    | (some value, cache) => (.returned value, cache)
    | (none, cache) => (if connected then .requested else .returned none, cache)

def setCached (cfg : CacheConfig Obj) (cache : MixinCaching Obj) (connected : Bool) (now : ℚ)
    (cacheKey : String) (value : Option Obj) (ttlSeconds : Option ℚ) :
    Progress Obj × MixinCaching Obj :=
  if !cfg.cacheEnabled then (.returned none, cache)
  else
    let ttl := cfg.ttl ttlSeconds
    if ttl.any fun ttl => ttl ≤ 0 then (.returned none, cache)
    else
      (if connected then .requested else .returned none, cache.setL1 cfg now cacheKey value ttl)

def invalidateCache (cache : MixinCaching Obj) (connected : Bool) (cacheKey : String) :
    Progress Obj × MixinCaching Obj :=
  (if connected then .requested else .returned none,
    { cache with cacheData := Function.update cache.cacheData cacheKey none })

def clearCache (cache : MixinCaching Obj) (connected : Bool) : Progress Obj × MixinCaching Obj :=
  (if connected then .requested else .returned none, { cache with cacheData := fun _ => none })

/-- A call begins. `connected` is what `_is_backend_connected` returns; without a backend it is
false. -/
def begin (cfg : CacheConfig Obj) (cache : MixinCaching Obj) (connected : Bool) (now : ℚ) :
    CacheCall Obj → Progress Obj × MixinCaching Obj
  | .getCached cacheKey => cache.getCached cfg connected now cacheKey
  | .setCached cacheKey value ttlSeconds =>
    cache.setCached cfg connected now cacheKey value ttlSeconds
  | .invalidateCache cacheKey => cache.invalidateCache connected cacheKey
  | .clearCache => cache.clearCache connected

def resume (cfg : CacheConfig Obj) (cache : MixinCaching Obj) (now : ℚ) :
    CacheCall Obj → BackendReply Obj → Progress Obj × MixinCaching Obj
  | .getCached cacheKey, .value (some value) =>
    (.returned (some value),
      (cache.setL1 cfg now cacheKey (some value) cfg.defaultTtlSeconds).resetFailureCount)
  | _, .failed => cache.handleL2Error cfg
  | _, _ => (.returned none, cache.resetFailureCount)

end MixinCaching

/-! ## The event loop -/

def CacheCall.carryOut (cfg : CacheConfig Obj) (backend : CacheBackend Obj) :
    CacheCall Obj → CacheBackend Obj
  | .getCached _ => backend
  | .setCached cacheKey value _ => Function.update backend cacheKey (some (cfg.reload value))
  | .invalidateCache cacheKey => Function.update backend cacheKey none
  | .clearCache => fun _ => none

def CacheCall.answer (backend : CacheBackend Obj) : CacheCall Obj → BackendReply Obj
  | .getCached cacheKey => .value (backend cacheKey).join
  | _ => .done

inductive CallPhase (Obj : Type)
  | requested
  | answered (reply : BackendReply Obj)
  | closing
  | returned (value : Option Obj) (at_ : ℕ)
deriving DecidableEq

/-- A call, with the steps at which it began and at which its operation on the backend was settled:
it was carried out, or never will be. -/
structure CallRecord (Obj : Type) where
  call : CacheCall Obj
  startedAt : ℕ
  settledAt : Option ℕ
  phase : CallPhase Obj
deriving DecidableEq

structure CacheLoop (Obj : Type) where
  cache : MixinCaching Obj := {}
  backend : CacheBackend Obj := fun _ => none
  calls : List (CallRecord Obj) := []
  clock : ℕ := 0

/-- The fate of an operation of the backend. One that fails may have been carried out. -/
inductive BackendOutcome
  | succeeds
  | fails (carriedOut : Bool)
deriving DecidableEq

/-- What happens next. -/
inductive CacheEvent (Obj : Type)
  | begin (call : CacheCall Obj) (connected : Bool) (now : ℚ)
  | settle (task : ℕ) (outcome : BackendOutcome)
  | resume (task : ℕ) (now : ℚ)
  /-- the backend drops an entry -/
  | drop (cacheKey : String)

def Progress.phase (clock : ℕ) : Progress Obj → CallPhase Obj
  | .returned value => .returned value clock
  | .requested => .requested
  | .closing => .closing

/-- When the operation of a call is settled that hands over for the first time. -/
def Progress.settledAt (clock : ℕ) : Progress Obj → Option ℕ
  | .requested => none
  | _ => some clock

namespace CacheLoop

def begin (cfg : CacheConfig Obj) (loop : CacheLoop Obj) (call : CacheCall Obj) (connected : Bool)
    (now : ℚ) : CacheLoop Obj :=
  let (progress, cache) := loop.cache.begin cfg connected now call
  { loop with
    cache := cache
    calls := loop.calls ++ [{
      call := call
      startedAt := loop.clock
      settledAt := progress.settledAt loop.clock
      phase := progress.phase loop.clock }] }

def settle (cfg : CacheConfig Obj) (loop : CacheLoop Obj) (task : ℕ) (record : CallRecord Obj)
    (outcome : BackendOutcome) : CacheLoop Obj :=
  { loop with
    backend :=
      if outcome = .fails false then loop.backend else record.call.carryOut cfg loop.backend
    calls := loop.calls.set task {
      record with
      settledAt := some loop.clock
      phase := .answered
        (if outcome = .succeeds then record.call.answer loop.backend else .failed) } }

def resume (cfg : CacheConfig Obj) (loop : CacheLoop Obj) (task : ℕ) (record : CallRecord Obj)
    (reply : BackendReply Obj) (now : ℚ) : CacheLoop Obj :=
  let (progress, cache) := loop.cache.resume cfg now record.call reply
  { loop with
    cache := cache
    calls := loop.calls.set task { record with phase := progress.phase loop.clock } }

/-- What an event does. One that cannot happen does nothing. -/
def act (cfg : CacheConfig Obj) (loop : CacheLoop Obj) : CacheEvent Obj → CacheLoop Obj
  | .begin call connected now => loop.begin cfg call connected now
  | .settle task outcome =>
    match loop.calls[task]? with
    | some record =>
      match record.phase with
      | .requested => loop.settle cfg task record outcome
      | _ => loop
    | none => loop
  | .resume task now =>
    match loop.calls[task]? with
    | some record =>
      match record.phase with
      | .answered reply => loop.resume cfg task record reply now
      | .closing =>
        { loop with
          calls := loop.calls.set task { record with phase := .returned none loop.clock } }
      | _ => loop
    | none => loop
  | .drop cacheKey => { loop with backend := Function.update loop.backend cacheKey none }

def step (cfg : CacheConfig Obj) (loop : CacheLoop Obj) (event : CacheEvent Obj) : CacheLoop Obj :=
  { loop.act cfg event with clock := loop.clock + 1 }

def run (cfg : CacheConfig Obj) (events : List (CacheEvent Obj)) : CacheLoop Obj :=
  events.foldl (step cfg) {}

end CacheLoop

end OmnibaseCore.Caching
