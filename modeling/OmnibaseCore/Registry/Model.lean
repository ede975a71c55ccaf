import OmnibaseCore.Python.Basic

/-!
# The service registry

`ServiceRegistry`: registrations under their ids, and four more maps with the ids of an
interface, the id under a service name, the factories and the instances. A resolution is cut
where it waits: for the lock that guards the factories of singletons, and for a factory.

Statistics, time stamps and the texts of errors are left out. An operation that raises may have
changed the registry before.
-/

namespace OmnibaseCore.Registry

inductive EnumServiceLifecycle
  | singleton
  | transient
  | «scoped»
  | pooled
  | lazy
  | eager
deriving DecidableEq

inductive EnumInjectionScope
  | request
  | session
  | thread
  | process
  | global
  | custom
deriving DecidableEq

/-- `ModelServiceRegistration`, with the names from its `service_metadata`. -/
structure ModelServiceRegistration where
  serviceName : String
  serviceInterface : String
  lifecycle : EnumServiceLifecycle
  scope : EnumInjectionScope
deriving DecidableEq

structure ModelServiceInstance (Obj : Type) where
  obj : Option Obj
  lifecycle : EnumServiceLifecycle
  scope : EnumInjectionScope
  isDisposed : Bool := false

def ModelServiceInstance.dispose {Obj : Type} (i : ModelServiceInstance Obj) :
    ModelServiceInstance Obj :=
  { i with isDisposed := true, obj := none }

inductive RegistryError
  | unknownInterface
  | noActiveRegistration
  | unknownName
  | unsupportedLifecycle
  | singletonWithoutFactory
  | transientWithoutFactory
  /-- an id that a map has and `_registrations` has not -/
  | keyError
  /-- `list.remove` of an id that is not in the list -/
  | valueError
  /-- raised by an implementation or a factory -/
  | creation (message : String)

/-- The code of a `ModelOnexError`. -/
def RegistryError.errorCode : RegistryError → Option EnumCoreErrorCode
  | .unknownInterface | .noActiveRegistration | .unknownName | .singletonWithoutFactory =>
    some .registryResolutionFailed
  | .unsupportedLifecycle | .transientWithoutFactory => some .methodNotImplemented
  | .keyError | .valueError | .creation _ => none

/-- `ServiceRegistry`. A factory is called from outside, so its entry holds the lifecycle only. -/
structure ServiceRegistry (Obj : Type) where
  registrations : UUID → Option ModelServiceRegistration := fun _ => none
  instances : UUID → Option (List (ModelServiceInstance Obj)) := fun _ => none
  interfaceMap : String → Option (List UUID) := fun _ => none
  nameMap : String → Option UUID := fun _ => none
  factories : UUID → Option EnumServiceLifecycle := fun _ => none

namespace ServiceRegistry

variable {Obj : Type}

/-! ## Registration -/

/-- What the three kinds of registration share: the registration is stored, its id is added
under its interface, and its name leads to it from now on. -/
def addRegistration (r : ServiceRegistry Obj) (rid : UUID)
    (registration : ModelServiceRegistration) : ServiceRegistry Obj :=
  { r with
    registrations := Function.update r.registrations rid (some registration)
    interfaceMap := Function.update r.interfaceMap registration.serviceInterface
      (some ((r.interfaceMap registration.serviceInterface).getD [] ++ [rid]))
    nameMap := Function.update r.nameMap registration.serviceName (some rid) }

def storeInstance (r : ServiceRegistry Obj) (rid : UUID) (obj : Obj)
    (lifecycle : EnumServiceLifecycle) (scope : EnumInjectionScope) : ServiceRegistry Obj :=
  { r with
    instances := Function.update r.instances rid
      (some ((r.instances rid).getD [] ++ [{ obj := some obj, lifecycle, scope }])) }

/-- `register_service`. `created` is what the constructor of the implementation gives. -/
def registerService (lazyLoadingEnabled : Bool) (r : ServiceRegistry Obj) (rid : UUID)
    (interfaceName implName : String) (lifecycle : EnumServiceLifecycle)
    (scope : EnumInjectionScope) (created : Except RegistryError Obj) :
    Except RegistryError UUID × ServiceRegistry Obj :=
  let r := r.addRegistration rid
    { serviceName := implName, serviceInterface := interfaceName, lifecycle, scope }
  if ¬ lazyLoadingEnabled ∧ lifecycle = .singleton then
    match created with
    | .error e => (.error e, r)
    | .ok obj => (.ok rid, r.storeInstance rid obj lifecycle scope)
  else
    (.ok rid, r)

def registerInstance (r : ServiceRegistry Obj) (rid : UUID) (interfaceName instanceType : String)
    (obj : Obj) (scope : EnumInjectionScope) : ServiceRegistry Obj :=
  (r.addRegistration rid
    { serviceName := instanceType, serviceInterface := interfaceName
      lifecycle := .singleton, scope }).storeInstance rid obj .singleton scope

def registerFactory (r : ServiceRegistry Obj) (rid : UUID) (interfaceName factoryType : String)
    (lifecycle : EnumServiceLifecycle) (scope : EnumInjectionScope) :
    Except RegistryError UUID × ServiceRegistry Obj :=
  if lifecycle = .singleton ∨ lifecycle = .transient then
    let r := r.addRegistration rid
      { serviceName := factoryType, serviceInterface := interfaceName, lifecycle, scope }
    (.ok rid, { r with factories := Function.update r.factories rid (some lifecycle) })
  else
    (.error .unsupportedLifecycle, r)

/-! ## Removal -/

def unregisterService (r : ServiceRegistry Obj) (rid : UUID) :
    Except RegistryError Bool × ServiceRegistry Obj :=
  match r.registrations rid with
  | none => (.ok false, r)
  | some registration =>
    let r := { r with instances := Function.update r.instances rid none }
    let interfaceName := registration.serviceInterface
    let removed : Except RegistryError (ServiceRegistry Obj) :=
      match r.interfaceMap interfaceName with
      | none => .ok r
      | some ids =>
        if rid ∈ ids then
          let ids := ids.erase rid
          .ok { r with
            interfaceMap := Function.update r.interfaceMap interfaceName
              (if ids = [] then none else some ids) }
        else
          .error .valueError
    match removed with
    | .error e => (.error e, r)
    | .ok r =>
      (.ok true,
        { r with
          nameMap := Function.update r.nameMap registration.serviceName none
          factories := Function.update r.factories rid none
          registrations := Function.update r.registrations rid none })

def disposeInstances (r : ServiceRegistry Obj) (rid : UUID) (scope : Option EnumInjectionScope) :
    ℕ × ServiceRegistry Obj :=
  match r.instances rid with
  | none => (0, r)
  | some instances =>
    let chosen := fun (i : ModelServiceInstance Obj) => scope = none ∨ scope = some i.scope
    let disposed := instances.map fun i => if chosen i then i.dispose else i
    ((instances.filter chosen).length,
      { r with
        instances := Function.update r.instances rid (some (disposed.filter fun i => !i.isDisposed)) })

/-! ## Resolution -/

/-- How a part of a resolution ends. -/
inductive Progress (Obj : Type)
  | returned (obj : Option Obj)
  | raised (e : RegistryError)
  /-- waits for the lock -/
  | acquire
  /-- waits for the factory -/
  | create

def existing (r : ServiceRegistry Obj) (rid : UUID) : Option (ModelServiceInstance Obj) :=
  ((r.instances rid).getD []).head?

/-- `_resolve_by_lifecycle`, as far as it goes without waiting. -/
def beginResolve (r : ServiceRegistry Obj) (rid : UUID) (lifecycle : EnumServiceLifecycle) :
    Progress Obj :=
  match lifecycle with
  | .singleton =>
    match r.existing rid with
    | some i => .returned i.obj
    | none =>
      if (r.factories rid).isSome then .acquire else .raised .singletonWithoutFactory
  | .transient => if (r.factories rid).isSome then .create else .raised .transientWithoutFactory
  | _ => .raised .unsupportedLifecycle

/-- The second check, made when the lock has been acquired. -/
def checkAgain (r : ServiceRegistry Obj) (rid : UUID) : Progress Obj :=
  match r.existing rid with
  | some i => .returned i.obj
  | none => .create

/-- `_resolve_by_lifecycle`, when nothing else runs. `created` is what the factory gives. -/
def resolveByLifecycle (r : ServiceRegistry Obj) (rid : UUID)
    (registration : ModelServiceRegistration) (scope : EnumInjectionScope)
    (created : Except RegistryError Obj) : Except RegistryError (Option Obj) × ServiceRegistry Obj :=
  match r.beginResolve rid registration.lifecycle with
  | .returned obj => (.ok obj, r)
  | .raised e => (.error e, r)
  -- the lock is free, and the second check finds what the first has found
  | .acquire | .create =>
    match created with
    | .error e => (.error e, r)
    | .ok obj => (.ok (some obj), r.storeInstance rid obj registration.lifecycle scope)

/-- What is asked for: `resolve_service`, `resolve_named_service` and `resolve_all_services`. -/
inductive ResolveCall
  | service (interfaceName : String)
  | named (name : String)
  | all (interfaceName : String)

def targets (r : ServiceRegistry Obj) : ResolveCall → Except RegistryError (List UUID)
  | .service interfaceName =>
    match r.interfaceMap interfaceName with
    | none => .error .unknownInterface
    | some [] => .error .noActiveRegistration
    | some (rid :: _) => .ok [rid]
  | .named name =>
    match r.nameMap name with
    | none => .error .unknownName
    | some rid => .ok [rid]
  | .all interfaceName => .ok ((r.interfaceMap interfaceName).getD [])

def resolveEach (scope : Option EnumInjectionScope) (created : UUID → Except RegistryError Obj) :
    List UUID → ServiceRegistry Obj → Except RegistryError (List (Option Obj)) × ServiceRegistry Obj
  | [], r => (.ok [], r)
  | rid :: rest, r =>
    match r.registrations rid with
    | none => (.error .keyError, r)
    | some registration =>
      match r.resolveByLifecycle rid registration (scope.getD registration.scope) (created rid) with
      | (.error e, r) => (.error e, r)
      | (.ok obj, r) =>
        match resolveEach scope created rest r with
        | (.error e, r) => (.error e, r)
        | (.ok objs, r) => (.ok (obj :: objs), r)

/-- A call, when nothing else runs. -/
def resolve (r : ServiceRegistry Obj) (call : ResolveCall) (scope : Option EnumInjectionScope)
    (created : UUID → Except RegistryError Obj) :
    Except RegistryError (List (Option Obj)) × ServiceRegistry Obj :=
  match r.targets call with
  | .error e => (.error e, r)
  | .ok rids => resolveEach scope created rids r

end ServiceRegistry

end OmnibaseCore.Registry
