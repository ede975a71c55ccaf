import OmnibaseCore.Registry.IndexTheorems

/-!
# Registrations that fail

`register_service`, `register_instance` and `register_factory` with every constructor that may
raise in them. The maps are written between the models of the registration and the creation of an
instance, and nothing is taken back.

* `register_noTrace_iff`: a failed call leaves no trace if and only if it fails before the maps are
  written.
-/

namespace OmnibaseCore.Registry

variable {Obj : Type}

/-! ## The operations -/

/-- What leaves a registration by `raise`. -/
inductive Raised
  /-- a `ModelOnexError` -/
  | onex (errorCode : EnumCoreErrorCode)
  /-- another `Exception` -/
  | exception (message : String)
  /-- `GeneratorExit`, `KeyboardInterrupt`, `SystemExit` or `CancelledError` -/
  | exit

structure Constructors (Obj : Type) where
  /-- `ModelServiceMetadata(...)` -/
  metadata : Except Raised Unit := .ok ()
  /-- `ModelServiceRegistration(...)` -/
  registration : Except Raised Unit := .ok ()
  implementation : Except Raised Obj
  /-- `ModelServiceInstance(...)` -/
  serviceInstance : Except Raised Unit := .ok ()

/-- A call of one of the three operations, with the id that it draws. -/
inductive RegisterCall (Obj : Type)
  | service (rid : UUID) (interfaceName implName : String) (lifecycle : EnumServiceLifecycle)
      (scope : EnumInjectionScope)
  | instance (rid : UUID) (interfaceName instanceType : String) (obj : Obj)
      (scope : EnumInjectionScope)
  | factory (rid : UUID) (interfaceName factoryType : String) (lifecycle : EnumServiceLifecycle)
      (scope : EnumInjectionScope)

/-- How a call ends: what it returns or raises, the maps, and whether `_failed_registrations` is
counted up. -/
structure RegisterOutcome (Obj : Type) where
  result : Except Raised UUID
  registry : ServiceRegistry Obj
  failed : Bool := false

/-- The `except` clauses around an operation. -/
def handled (e : Raised) (r : ServiceRegistry Obj) : RegisterOutcome Obj :=
  match e with
  | .exception _ =>
    { result := .error (.onex .registryResolutionFailed), registry := r, failed := true }
  | e => { result := .error e, registry := r }

/-- `_store_instance`, at the end of a registration. -/
def storeCreated (c : Constructors Obj) (r : ServiceRegistry Obj) (rid : UUID) (obj : Obj)
    (lifecycle : EnumServiceLifecycle) (scope : EnumInjectionScope) : RegisterOutcome Obj :=
  match c.serviceInstance with
  | .error e => handled e r
  | .ok () => { result := .ok rid, registry := r.storeInstance rid obj lifecycle scope }

/-- What comes behind the models of the registration: the maps are written, then the instance is
created. -/
def record (lazyLoadingEnabled : Bool) (c : Constructors Obj) (r : ServiceRegistry Obj) :
    RegisterCall Obj → RegisterOutcome Obj
  | .service rid interfaceName implName lifecycle scope =>
    let r := r.addRegistration rid
      { serviceName := implName, serviceInterface := interfaceName, lifecycle, scope }
    if ¬ lazyLoadingEnabled ∧ lifecycle = .singleton then
      match c.implementation with
      | .error e => handled e r
      | .ok obj => storeCreated c r rid obj lifecycle scope
    else { result := .ok rid, registry := r }
  | .instance rid interfaceName instanceType obj scope =>
    let r := r.addRegistration rid
      { serviceName := instanceType, serviceInterface := interfaceName
        lifecycle := .singleton, scope }
    storeCreated c r rid obj .singleton scope
  | .factory rid interfaceName factoryType lifecycle scope =>
    let r := r.addRegistration rid
      { serviceName := factoryType, serviceInterface := interfaceName, lifecycle, scope }
    { result := .ok rid
      registry := { r with factories := Function.update r.factories rid (some lifecycle) } }

def RegisterCall.Unsupported : RegisterCall Obj → Prop
  | .factory _ _ _ lifecycle _ => ¬ (lifecycle = .singleton ∨ lifecycle = .transient)
  | _ => False

instance (call : RegisterCall Obj) : Decidable call.Unsupported := by
  unfold RegisterCall.Unsupported
  split <;> infer_instance

/-- `register_service`, `register_instance` and `register_factory`. -/
def register (lazyLoadingEnabled : Bool) (c : Constructors Obj) (r : ServiceRegistry Obj)
    (call : RegisterCall Obj) : RegisterOutcome Obj :=
  if call.Unsupported then handled (.onex .methodNotImplemented) r
  else
    match c.metadata with
    | .error e => handled e r
    | .ok () =>
      match c.registration with
      | .error e => handled e r
      | .ok () => record lazyLoadingEnabled c r call

theorem handled_result (e : Raised) (r : ServiceRegistry Obj) :
    ∃ e', (handled e r).result = .error e' := by
  cases e <;> exact ⟨_, rfl⟩

@[simp] theorem handled_registry (e : Raised) (r : ServiceRegistry Obj) :
    (handled e r).registry = r := by
  cases e <;> rfl

/-! ## Failed calls -/

def LeavesNoTrace (lazyLoadingEnabled : Bool) (c : Constructors Obj) (r : ServiceRegistry Obj)
    (call : RegisterCall Obj) : Prop :=
  ∀ e, (register lazyLoadingEnabled c r call).result = .error e →
    (register lazyLoadingEnabled c r call).registry = r

/-- A constructor raises behind the writing of the maps: that of the implementation or of its
`ModelServiceInstance` where a singleton is created at once, or that of the `ModelServiceInstance`
of an instance. -/
def RaisesLate (lazyLoadingEnabled : Bool) (c : Constructors Obj) : RegisterCall Obj → Prop
  | .service _ _ _ lifecycle _ =>
    (lazyLoadingEnabled = false ∧ lifecycle = .singleton) ∧
      ((∃ e, c.implementation = .error e) ∨ ∃ e, c.serviceInstance = .error e)
  | .instance .. => ∃ e, c.serviceInstance = .error e
  | .factory .. => False

def Constructors.Admits (c : Constructors Obj) : Prop :=
  c.metadata = .ok () ∧ c.registration = .ok ()

theorem addRegistration_ne (r : ServiceRegistry Obj) (rid : UUID)
    (registration : ModelServiceRegistration) : r.addRegistration rid registration ≠ r := by
  intro hsame
  have hlisted := listed_addRegistration r rid registration registration.serviceInterface
  rw [hsame, if_pos rfl] at hlisted
  have hlength := congrArg List.length hlisted
  rw [List.length_append, List.length_singleton] at hlength
  omega

/-- An operation that raises late leaves a trace, and any other one returns an id. -/
theorem record_spec (lazyLoadingEnabled : Bool) (c : Constructors Obj) (r : ServiceRegistry Obj)
    (call : RegisterCall Obj) :
    (RaisesLate lazyLoadingEnabled c call →
      (∃ e, (record lazyLoadingEnabled c r call).result = .error e) ∧
        (record lazyLoadingEnabled c r call).registry ≠ r) ∧
      (¬ RaisesLate lazyLoadingEnabled c call →
        ∃ rid, (record lazyLoadingEnabled c r call).result = .ok rid) := by
  have hstore : ∀ (rid : UUID) (registration : ModelServiceRegistration) (obj : Obj)
      (lifecycle : EnumServiceLifecycle) (scope : EnumInjectionScope),
      ((∃ e, c.serviceInstance = .error e) →
        (∃ e, (storeCreated c (r.addRegistration rid registration) rid obj lifecycle scope).result
          = .error e) ∧
        (storeCreated c (r.addRegistration rid registration) rid obj lifecycle scope).registry
          ≠ r) ∧
      ((¬ ∃ e, c.serviceInstance = .error e) →
        ∃ rid', (storeCreated c (r.addRegistration rid registration) rid obj lifecycle scope).result
          = .ok rid') := by
    intro rid registration obj lifecycle scope
    unfold storeCreated
    cases c.serviceInstance with
    | error e =>
      refine ⟨fun _ => ⟨handled_result e _, ?_⟩, fun h => absurd ⟨e, rfl⟩ h⟩
      rw [handled_registry]
      exact addRegistration_ne r rid registration
    | ok => exact ⟨nofun, fun _ => ⟨rid, rfl⟩⟩
  cases call with
  | service rid interfaceName implName lifecycle scope =>
    show _ ∧ (¬ ((lazyLoadingEnabled = false ∧ lifecycle = .singleton) ∧ _) → _)
    unfold record
    by_cases heager : ¬ lazyLoadingEnabled ∧ lifecycle = .singleton
    · simp only [if_pos heager]
      have heager' : lazyLoadingEnabled = false ∧ lifecycle = .singleton :=
        ⟨Bool.eq_false_iff.mpr heager.1, heager.2⟩
      cases himplementation : c.implementation with
      | error e =>
        refine ⟨fun _ => ⟨handled_result e _, ?_⟩, fun h => (h ⟨heager', Or.inl ⟨e, rfl⟩⟩).elim⟩
        rw [handled_registry]
        exact addRegistration_ne r rid _
      | ok obj =>
        constructor
        · intro hlate
          apply (hstore rid _ obj lifecycle scope).1
          rcases hlate.2 with ⟨e, he⟩ | hraises
          · rw [himplementation] at he
            exact nomatch he
          · exact hraises
        · intro hlate
          exact (hstore rid _ obj lifecycle scope).2 fun h => hlate ⟨heager', Or.inr h⟩
    · simp only [if_neg heager]
      refine ⟨fun h => absurd ⟨Bool.eq_false_iff.mp h.1.1, h.1.2⟩ heager, fun _ => ⟨rid, rfl⟩⟩
  | «instance» rid interfaceName instanceType obj scope =>
    exact hstore rid _ obj .singleton scope
  | factory rid interfaceName factoryType lifecycle scope =>
    exact ⟨fun h => h.elim, fun _ => ⟨rid, rfl⟩⟩

/-- A failed call leaves no trace: if and only if no constructor raises behind the writing of the
maps. -/
theorem register_noTrace_iff (lazyLoadingEnabled : Bool) (c : Constructors Obj)
    (r : ServiceRegistry Obj) (call : RegisterCall Obj) :
    LeavesNoTrace lazyLoadingEnabled c r call ↔
      ¬ (c.Admits ∧ RaisesLate lazyLoadingEnabled c call) := by
  obtain ⟨hlate, hreturns⟩ := record_spec lazyLoadingEnabled c r call
  unfold LeavesNoTrace register Constructors.Admits
  by_cases hunsupported : call.Unsupported
  · simp only [if_pos hunsupported, handled_registry, implies_true, true_iff]
    intro h
    -- an unsupported call is one of `register_factory`, which creates nothing
    cases call with
    | factory => exact h.2
    | _ => exact hunsupported
  · simp only [if_neg hunsupported]
    cases hmetadata : c.metadata with
    | error e => simp
    | ok =>
      cases hregistration : c.registration with
      | error e => simp
      | ok =>
        constructor
        · intro hnoTrace hraises
          obtain ⟨⟨e, he⟩, hne⟩ := hlate hraises.2
          exact hne (hnoTrace e he)
        · intro hnot e he
          obtain ⟨rid, hrid⟩ := hreturns fun h => hnot ⟨⟨rfl, rfl⟩, h⟩
          rw [hrid] at he
          exact nomatch he

/-- A singleton whose constructor raises. -/
def failingService : RegisterCall ℕ :=
  .service ⟨1⟩ "ITestService" "FailingService" .singleton .global

def failingConstructors : Constructors ℕ where
  implementation := .error (.exception "Initialization failed")

/-- The service is registered under its interface and its name, although its registration has
failed. -/
theorem failingService_leavesTrace :
    (register false failingConstructors {} failingService).result
        = .error (.onex .registryResolutionFailed) ∧
      (register false failingConstructors {} failingService).failed = true ∧
      (register false failingConstructors {} failingService).registry.interfaceMap "ITestService"
        = some [⟨1⟩] ∧
      (register false failingConstructors {} failingService).registry.nameMap "FailingService"
        = some ⟨1⟩ ∧
      ¬ LeavesNoTrace false failingConstructors {} failingService := by
  refine ⟨rfl, rfl, rfl, rfl, fun h => ?_⟩
  have hsame := h _ rfl
  exact absurd (congrArg (fun r => r.nameMap "FailingService") hsame) (by decide)

end OmnibaseCore.Registry
