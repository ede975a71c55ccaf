import OmnibaseCore.Merge.Model
import OmnibaseCore.Python.GroupBy
import OmnibaseCore.Python.Path
import OmnibaseCore.Python.PyDict

/-!
# Routes to handlers

`MixinHandlerRouting`, which a node initialises with the table of a contract,
`ModelHandlerRoutingSubcontract.build_routing_table`, and asks for the handlers of a routing key.
What it found for a topic it keeps in a cache, which is no part of its answers.

* `getHandlerKeysForRoutingKey_run` : a call looks up what the contract of the last initialisation
  declares for the key, whatever calls came before it, and the cache stays within its bound.
-/

/-! ## Tables -/

namespace OmnibaseCore.Merge

/-- The discriminator key of an entry. -/
def ModelHandlerRoutingEntry.key (entry : ModelHandlerRoutingEntry) :
    EnumHandlerRoutingStrategy → Option String
  | .payloadTypeMatch => entry.eventModel.map ModelHandlerRef.name
  | .operationMatch => entry.operation
  | .topicPattern => entry.eventType

/-- The loop of `build_routing_table`. -/
def routingTable (strategy : EnumHandlerRoutingStrategy)
    (handlers : List ModelHandlerRoutingEntry) : List (String × List String) :=
  handlers.foldl (fun table entry =>
    match entry.key strategy with
    | none => table
    | some key => appendAt table key entry.handler.name) []

def ModelHandlerRoutingSubcontract.buildRoutingTable (contract : ModelHandlerRoutingSubcontract) :
    List (String × List String) :=
  routingTable contract.routingStrategy contract.handlers

/-- `routing_table.get(routing_key)`, or else the default. -/
def lookupTable (table : List (String × List String)) (default : Option String)
    (routingKey : String) : List String :=
  match getList table routingKey with
  | [] => default.toList
  | handlerKeys => handlerKeys

section
variable (strategy : EnumHandlerRoutingStrategy) (handlers : List ModelHandlerRoutingEntry)

/-- The discriminator keys, in the order of the entries. -/
def declaredKeys : List String := handlers.filterMap (·.key strategy)

/-- The handlers that are declared for a discriminator key, in their order. -/
def declaredHandlers (key : String) : List String :=
  (handlers.filter fun entry => entry.key strategy = some key).map (·.handler.name)

end

/-- What the entries declare for a routing key: for topics, the handlers of the first pattern that
matches, or else the default. -/
def ModelHandlerRoutingSubcontract.handlerKeys (contract : ModelHandlerRoutingSubcontract)
    (routingKey : String) : List String :=
  match contract.routingStrategy with
  | .topicPattern =>
    (((declaredKeys .topicPattern contract.handlers).find? (fnmatch routingKey)).map
      (declaredHandlers .topicPattern contract.handlers)).getD contract.defaultHandler.toList
  | _ => lookupTable contract.buildRoutingTable contract.defaultHandler routingKey

variable {strategy : EnumHandlerRoutingStrategy} {handlers : List ModelHandlerRoutingEntry}

theorem declaredHandlers_eq_nil_iff {key : String} :
    declaredHandlers strategy handlers key = [] ↔ key ∉ declaredKeys strategy handlers := by
  unfold declaredHandlers declaredKeys
  simp [List.filter_eq_nil_iff]

/-- The table has the keys in the order of their first entries, each with its handlers. -/
theorem find?_routingTable (p : String → Bool) :
    (routingTable strategy handlers).find? (p ·.1) =
      ((declaredKeys strategy handlers).find? p).map fun key =>
        (key, declaredHandlers strategy handlers key) := by
  induction handlers using List.reverseRecOn with
  | nil => rfl
  | append_singleton handlers entry ih =>
    have htable : routingTable strategy (handlers ++ [entry]) =
        match entry.key strategy with
        | none => routingTable strategy handlers
        | some key => appendAt (routingTable strategy handlers) key entry.handler.name :=
      List.foldl_concat ..
    have hkeys : declaredKeys strategy (handlers ++ [entry]) =
        declaredKeys strategy handlers ++ (entry.key strategy).toList := by
      unfold declaredKeys
      rw [List.filterMap_append]
      cases hkey : entry.key strategy <;> simp [hkey]
    have hdeclared : ∀ key, declaredHandlers strategy (handlers ++ [entry]) key =
        declaredHandlers strategy handlers key ++
          if entry.key strategy = some key then [entry.handler.name] else [] := by
      intro key
      unfold declaredHandlers
      split_ifs with hkey <;> simp [hkey]
    rw [htable, hkeys, List.find?_append]
    simp only [hdeclared]
    cases hkey : entry.key strategy with
    | none => simpa using ih
    | some key =>
      rw [find?_appendAt, ih]
      cases hfind : (declaredKeys strategy handlers).find? p with
      | some key' =>
        by_cases hsame : key' = key
        · simp [hsame]
        · simp [hsame, Ne.symm hsame]
      | none =>
        by_cases hp : p key = true
        · have hnil : declaredHandlers strategy handlers key = [] :=
            declaredHandlers_eq_nil_iff.mpr fun hmem => List.find?_eq_none.mp hfind key hmem hp
          simp [hp, hnil]
        · simp [hp]

end OmnibaseCore.Merge

namespace OmnibaseCore.Dispatch

open Merge

/-! ## Nodes -/

/-- `MixinHandlerRouting`. A registry is given by `ρ`, a compiled pattern by its items. -/
structure MixinHandlerRouting (ρ : Type) where
  handlerRoutingTable : List (String × List String) := []
  handlerRegistry : Option ρ := none
  routingStrategy : EnumHandlerRoutingStrategy := .payloadTypeMatch
  defaultHandlerKey : Option String := none
  routingInitialized : Bool := false
  compiledPatterns : List (List Glob × List String) := []
  topicPatternCache : PyDict String (Option (List String)) := .empty

def topicPatternCacheMaxSize : ℕ := 128

/-- `fnmatch.translate` and `re.compile`. -/
def compilePattern (pattern : String) : List Glob :=
  Glob.translate pattern.length pattern.toList

/-- The keys of the first pattern that matches. -/
def firstMatch (patterns : List (List Glob × List String)) (routingKey : String) :
    Option (List String) :=
  (patterns.find? fun row => Glob.matchAll row.1 routingKey.toList).map Prod.snd

namespace MixinHandlerRouting

variable {ρ : Type}

def initHandlerRouting (handlerRouting : Option ModelHandlerRoutingSubcontract)
    (registry : Option ρ) (node : MixinHandlerRouting ρ) :
    Except ModelOnexError (MixinHandlerRouting ρ) :=
  match registry with
  | none =>
    .error
      { errorCode := .invalidParameter
        message := "ProtocolHandlerRegistry cannot be None for handler routing"
        context := [] }
  | some registry =>
    match handlerRouting with
    | none => .ok
      { node with
        handlerRegistry := some registry
        handlerRoutingTable := []
        routingStrategy := .payloadTypeMatch
        defaultHandlerKey := none
        compiledPatterns := []
        routingInitialized := true
        topicPatternCache := .empty }
    | some contract => .ok
      { node with
        handlerRegistry := some registry
        handlerRoutingTable := contract.buildRoutingTable
        routingStrategy := contract.routingStrategy
        defaultHandlerKey := contract.defaultHandler
        compiledPatterns :=
          match contract.routingStrategy with
          | .topicPattern =>
            contract.buildRoutingTable.map fun row => (compilePattern row.1, row.2)
          | _ => []
        topicPatternCache := .empty
        routingInitialized := true }

def getHandlerKeysForTopicPattern (routingKey : String) (node : MixinHandlerRouting ρ) :
    Option (List String) × MixinHandlerRouting ρ :=
  match node.topicPatternCache.get routingKey with
  | some cached => (cached, node)
  | none =>
    let result := firstMatch node.compiledPatterns routingKey
    let cache :=
      if topicPatternCacheMaxSize ≤ node.topicPatternCache.size then
        node.topicPatternCache.delFirst
      else node.topicPatternCache
    (result, { node with topicPatternCache := cache.setItem routingKey result })

def getHandlerKeysForRoutingKey (routingKey : String) (node : MixinHandlerRouting ρ) :
    List String × MixinHandlerRouting ρ :=
  let default := node.defaultHandlerKey.toList
  match node.routingStrategy with
  | .topicPattern =>
    let (cachedResult, node) := node.getHandlerKeysForTopicPattern routingKey
    (cachedResult.getD default, node)
  | _ => (lookupTable node.handlerRoutingTable node.defaultHandlerKey routingKey, node)

/-! ## Runs -/

inductive Call (ρ : Type)
  | initHandlerRouting (handlerRouting : Option ModelHandlerRoutingSubcontract)
      (registry : Option ρ)
  | getHandlerKeysForRoutingKey (routingKey : String)

/-- A call that raises leaves the node as it was. -/
def step (node : MixinHandlerRouting ρ) : Call ρ → MixinHandlerRouting ρ
  | .initHandlerRouting handlerRouting registry =>
    (node.initHandlerRouting handlerRouting registry).toOption.getD node
  | .getHandlerKeysForRoutingKey routingKey => (node.getHandlerKeysForRoutingKey routingKey).2

def run (calls : List (Call ρ)) : MixinHandlerRouting ρ := calls.foldl step {}

/-- The contract of the last initialisation that did not raise. -/
def current (calls : List (Call ρ)) : Option ModelHandlerRoutingSubcontract :=
  calls.foldl (fun contract call =>
    match call with
    | .initHandlerRouting handlerRouting (some _) => handlerRouting
    | _ => contract) none

/-- The keys that a contract, or no contract, gives for a routing key. -/
def uncached (contract : Option ModelHandlerRoutingSubcontract) (routingKey : String) :
    List String :=
  (contract.map (·.handlerKeys routingKey)).getD []

/-- A node with an empty cache gives what the contract does, and the entries of the cache are what
the patterns give. -/
structure Serves (node : MixinHandlerRouting ρ)
    (contract : Option ModelHandlerRoutingSubcontract) : Prop where
  keys_eq : ∀ routingKey, (getHandlerKeysForRoutingKey routingKey
    { node with topicPatternCache := .empty }).1 = uncached contract routingKey
  get_eq : ∀ routingKey result, node.topicPatternCache.get routingKey = some result →
    result = firstMatch node.compiledPatterns routingKey
  size_le : node.topicPatternCache.size ≤ topicPatternCacheMaxSize

variable {node : MixinHandlerRouting ρ} {contract : Option ModelHandlerRoutingSubcontract}

theorem getHandlerKeysForTopicPattern_spec (h : node.Serves contract) (routingKey : String) :
    (node.getHandlerKeysForTopicPattern routingKey).1 = firstMatch node.compiledPatterns routingKey ∧
      (node.getHandlerKeysForTopicPattern routingKey).2.Serves contract := by
  unfold getHandlerKeysForTopicPattern
  cases hget : node.topicPatternCache.get routingKey with
  | some cached => exact ⟨h.get_eq routingKey cached hget, h⟩
  | none =>
    refine ⟨rfl, h.keys_eq, fun key result hresult => ?_, ?_⟩
    · dsimp only at hresult
      rw [PyDict.get_setItem] at hresult
      split_ifs at hresult with hkey hfull
      · rw [hkey, Option.some.inj hresult]
      · exact h.get_eq key result (PyDict.get_of_get_delFirst hresult)
      · exact h.get_eq key result hresult
    · have hsize := h.size_le
      dsimp only
      rw [PyDict.size_setItem]
      split_ifs with hfull hcontains hcontains
      all_goals
        simp only [PyDict.size_delFirst, topicPatternCacheMaxSize] at *
        omega

/-- A lookup gives what it gives without the cache. -/
theorem getHandlerKeysForRoutingKey_spec (h : node.Serves contract) (routingKey : String) :
    (node.getHandlerKeysForRoutingKey routingKey).1 = uncached contract routingKey ∧
      (node.getHandlerKeysForRoutingKey routingKey).2.Serves contract := by
  obtain ⟨hlookup, hserves⟩ := getHandlerKeysForTopicPattern_spec h routingKey
  rw [← h.keys_eq]
  unfold getHandlerKeysForRoutingKey
  cases hstrategy : node.routingStrategy with
  | topicPattern =>
    simp only [hlookup]
    exact ⟨rfl, hserves⟩
  | _ => exact ⟨rfl, h⟩

theorem firstMatch_routingTable (handlers : List ModelHandlerRoutingEntry) (routingKey : String) :
    firstMatch ((routingTable .topicPattern handlers).map fun row => (compilePattern row.1, row.2))
        routingKey =
      ((declaredKeys .topicPattern handlers).find? (fnmatch routingKey)).map
        (declaredHandlers .topicPattern handlers) := by
  unfold firstMatch
  rw [List.find?_map, Option.map_map]
  show ((routingTable .topicPattern handlers).find? (fnmatch routingKey ·.1)).map Prod.snd = _
  rw [find?_routingTable, Option.map_map]
  rfl

theorem serves_step_init (registry : ρ) :
    (node.step (.initHandlerRouting contract (some registry))).Serves contract := by
  cases contract with
  | none => exact ⟨fun _ => rfl, fun _ _ h => (nomatch h), Nat.zero_le _⟩
  | some contract =>
    refine ⟨fun routingKey => ?_, fun _ _ h => (nomatch h), Nat.zero_le _⟩
    obtain ⟨version, strategy, handlers, default⟩ := contract
    cases strategy with
    | topicPattern =>
      show (firstMatch _ routingKey).getD default.toList = _
      exact congrArg (Option.getD · default.toList) (firstMatch_routingTable handlers routingKey)
    | _ => rfl

theorem serves_run (calls : List (Call ρ)) : (run calls).Serves (current calls) := by
  induction calls using List.reverseRecOn with
  | nil => exact ⟨fun _ => rfl, fun _ _ h => (nomatch h), Nat.zero_le _⟩
  | append_singleton calls call ih =>
    unfold run current
    rw [List.foldl_concat, List.foldl_concat]
    cases call with
    | getHandlerKeysForRoutingKey routingKey =>
      exact (getHandlerKeysForRoutingKey_spec ih routingKey).2
    | initHandlerRouting handlerRouting registry =>
      cases registry with
      | none => exact ih
      | some registry => exact serves_step_init registry

/-- The cache is transparent, and bounded. -/
theorem getHandlerKeysForRoutingKey_run (calls : List (Call ρ)) :
    (run calls).topicPatternCache.size ≤ topicPatternCacheMaxSize ∧
      ∀ routingKey, ((run calls).getHandlerKeysForRoutingKey routingKey).1 =
        uncached (current calls) routingKey :=
  ⟨(serves_run calls).size_le, fun routingKey =>
    (getHandlerKeysForRoutingKey_spec (serves_run calls) routingKey).1⟩

end MixinHandlerRouting

end OmnibaseCore.Dispatch
