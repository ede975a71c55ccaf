import OmnibaseCore.Registry.Model

/-!
# Concurrent use of the registry

A step of the event loop runs one task until it waits: for `_singleton_lock`, an `asyncio.Lock`,
which is handed on in the order in which it was asked for, or for a factory. What other tasks do
in between is arbitrary. A call that resolves several registrations takes a step of its own for
each of them.
-/

namespace OmnibaseCore.Registry

variable {Obj : Type}

/-- Where a resolution waits: for the lock, or for the factory that it has called. -/
inductive Phase
  | waiting
  | creating
deriving DecidableEq

/-- A resolution that waits. -/
structure Pending where
  rid : UUID
  lifecycle : EnumServiceLifecycle
  scope : EnumInjectionScope
  phase : Phase

/-- The registry, the lock with those that wait for it, and the tasks that wait. -/
structure EventLoop (Obj : Type) where
  registry : ServiceRegistry Obj := {}
  holder : Option ℕ := none
  waiters : List ℕ := []
  pending : ℕ → Option Pending := fun _ => none

/-- What runs next. -/
inductive Event (Obj : Type)
  | registerService (rid : UUID) (interfaceName implName : String)
      (lifecycle : EnumServiceLifecycle) (scope : EnumInjectionScope)
      (created : Except RegistryError Obj)
  | registerInstance (rid : UUID) (interfaceName instanceType : String) (obj : Obj)
      (scope : EnumInjectionScope)
  | registerFactory (rid : UUID) (interfaceName factoryType : String)
      (lifecycle : EnumServiceLifecycle) (scope : EnumInjectionScope)
  | unregisterService (rid : UUID)
  | disposeInstances (rid : UUID) (scope : Option EnumInjectionScope)
  /-- a task begins to resolve the `k`-th registration of a call -/
  | begin (task : ℕ) (call : ServiceRegistry.ResolveCall) (k : ℕ)
      (scope : Option EnumInjectionScope)
  /-- the first of those that wait for the lock gets it -/
  | wake
  /-- the factory that a task has called completes, or fails -/
  | finish (task : ℕ) (result : Except RegistryError Obj)

/-- A factory ends, or the first task in the queue wakes: no new call is made. -/
def Event.GoesOn {Obj : Type} : Event Obj → Prop
  | .wake | .finish _ _ => True
  | _ => False

/-- What is seen of a step. -/
inductive Output (Obj : Type)
  /-- a resolution of a registration returns -/
  | resolved (rid : UUID) (obj : Option Obj)
  /-- a factory completes successfully -/
  | created (rid : UUID) (obj : Obj)
  /-- an instance is stored, for an id that is registered or not -/
  | stored (rid : UUID) (registered : Bool)
deriving DecidableEq

namespace EventLoop

def enter (s : EventLoop Obj) (task : ℕ) (p : Pending) : EventLoop Obj × List (Output Obj) :=
  match s.registry.checkAgain p.rid with
  | .returned obj =>
    ({ s with pending := Function.update s.pending task none }, [.resolved p.rid obj])
  | _ =>
    ({ s with
        holder := some task
        pending := Function.update s.pending task (some { p with phase := .creating }) }, [])

def begin (s : EventLoop Obj) (task : ℕ) (rid : UUID) (registration : ModelServiceRegistration)
    (scope : EnumInjectionScope) : EventLoop Obj × List (Output Obj) :=
  let p : Pending := { rid, lifecycle := registration.lifecycle, scope, phase := .waiting }
  match s.registry.beginResolve rid registration.lifecycle with
  | .returned obj => (s, [.resolved rid obj])
  | .raised _ => (s, [])
  | .create =>
    ({ s with pending := Function.update s.pending task (some { p with phase := .creating }) }, [])
  | .acquire =>
    if s.holder = none ∧ s.waiters = [] then
      s.enter task p
    else
      ({ s with
          waiters := s.waiters ++ [task]
          pending := Function.update s.pending task (some p) }, [])

/-- An instance is stored, and the output says whether its id is registered. -/
def stored (s : EventLoop Obj) (rid : UUID) : Output Obj :=
  .stored rid (s.registry.registrations rid).isSome

def finish (s : EventLoop Obj) (task : ℕ) (p : Pending) (result : Except RegistryError Obj) :
    EventLoop Obj × List (Output Obj) :=
  let left : EventLoop Obj :=
    { s with
      holder := if s.holder = some task then none else s.holder
      pending := Function.update s.pending task none }
  match result with
  | .error _ => (left, [])
  | .ok obj =>
    ({ left with registry := s.registry.storeInstance p.rid obj p.lifecycle p.scope },
      [.created p.rid obj, s.stored p.rid, .resolved p.rid (some obj)])

def step (lazyLoadingEnabled : Bool) (s : EventLoop Obj) :
    Event Obj → EventLoop Obj × List (Output Obj)
  | .registerService rid interfaceName implName lifecycle scope created =>
    let (result, registry) :=
      s.registry.registerService lazyLoadingEnabled rid interfaceName implName lifecycle scope
        created
    let s := { s with registry }
    (s, if ¬ lazyLoadingEnabled ∧ lifecycle = .singleton ∧ result.isOk then [s.stored rid] else [])
  | .registerInstance rid interfaceName instanceType obj scope =>
    let s := { s with
      registry := s.registry.registerInstance rid interfaceName instanceType obj scope }
    (s, [s.stored rid])
  | .registerFactory rid interfaceName factoryType lifecycle scope =>
    ({ s with
        registry := (s.registry.registerFactory rid interfaceName factoryType lifecycle scope).2 },
      [])
  | .unregisterService rid => ({ s with registry := (s.registry.unregisterService rid).2 }, [])
  | .disposeInstances rid scope =>
    ({ s with registry := (s.registry.disposeInstances rid scope).2 }, [])
  | .begin task call k scope =>
    match s.pending task, s.registry.targets call with
    | none, .ok rids =>
      match rids[k]? with
      | none => (s, [])
      | some rid =>
        match s.registry.registrations rid with
        | none => (s, [])
        | some registration => s.begin task rid registration (scope.getD registration.scope)
    | _, _ => (s, [])
  | .wake =>
    match s.holder, s.waiters with
    | none, task :: rest =>
      match s.pending task with
      | none => (s, [])
      | some p => { s with waiters := rest }.enter task p
    | _, _ => (s, [])
  | .finish task result =>
    match s.pending task with
    | none => (s, [])
    | some p => if p.phase = .creating then s.finish task p result else (s, [])

/-- Steps one after the other, with all that is seen of them. -/
def runFrom (lazyLoadingEnabled : Bool) (s : EventLoop Obj) :
    List (Event Obj) → EventLoop Obj × List (Output Obj)
  | [] => (s, [])
  | e :: rest =>
    let (s, outputs) := s.step lazyLoadingEnabled e
    let (s, outputs') := runFrom lazyLoadingEnabled s rest
    (s, outputs ++ outputs')

end EventLoop

/-!
## What a step of the event loop can do

* `moves_step`: every step is one of the moves of `Moves`, each of which says how it changes
  the registry, the lock and the tasks that wait, and what is seen of it.
-/

variable {Obj : Type}

/-- If an event registers `rid`, it registers a factory for a singleton. -/
def Event.SingletonFactoryOnly (rid : UUID) : Event Obj → Prop
  | .registerService id .. | .registerInstance id .. => id ≠ rid
  | .registerFactory id _ _ lifecycle _ => id = rid → lifecycle = .singleton
  | _ => True

/-- `dispose_instances` and `unregister_service` of `rid`. -/
def Event.Disposes (rid : UUID) : Event Obj → Prop
  | .unregisterService id | .disposeInstances id _ => id = rid
  | _ => False

def ServiceRegistry.stock (r : ServiceRegistry Obj) (rid : UUID) :
    List (ModelServiceInstance Obj) :=
  (r.instances rid).getD []

inductive Moves (s : EventLoop Obj) : Event Obj → EventLoop Obj → List (Output Obj) → Prop
  /-- nothing happens -/
  | idle {e : Event Obj} : Moves s e s []
  /-- an id is registered, and an instance may be stored for it -/
  | registered {e : Event Obj} {registry : ServiceRegistry Obj} {outputs : List (Output Obj)}
      (id : UUID) (registration : ModelServiceRegistration)
      (hregistrations : registry.registrations
        = Function.update s.registry.registrations id (some registration))
      (hinstances : ∀ other, other ≠ id → registry.instances other = s.registry.instances other)
      (hfactory : e.SingletonFactoryOnly id →
        registration.lifecycle = .singleton ∧ registry.instances = s.registry.instances)
      (houtputs : ∀ o ∈ outputs, o = .stored id true) :
      Moves s e { s with registry } outputs
  /-- instances are disposed of, and an id may be unregistered -/
  | disposed {e : Event Obj} {registry : ServiceRegistry Obj} (id : UUID) (he : e.Disposes id)
      (hregistrations : ∀ other, registry.registrations other = s.registry.registrations other ∨
        e = .unregisterService id ∧ other = id ∧ registry.registrations other = none)
      (hinstances : ∀ other, other ≠ id → registry.instances other = s.registry.instances other)
      (hstock : (registry.stock id).length ≤ (s.registry.stock id).length) :
      Moves s e { s with registry } []
  /-- a resolution finds an instance at once -/
  | returned {e : Event Obj} {rid : UUID} {i : ModelServiceInstance Obj}
      (hexisting : s.registry.existing rid = some i) : Moves s e s [.resolved rid i.obj]
  /-- a resolution calls the factory of a transient service -/
  | transient {e : Event Obj} {task : ℕ} {rid : UUID} {registration : ModelServiceRegistration}
      {scope : EnumInjectionScope} (hnew : s.pending task = none)
      (hregistration : s.registry.registrations rid = some registration)
      (hlifecycle : registration.lifecycle = .transient) :
      Moves s e
        { s with pending := Function.update s.pending task (some ⟨rid, .transient, scope, .creating⟩) }
        []
  /-- a resolution gets the lock at once and calls the factory of a singleton -/
  | entered {e : Event Obj} {task : ℕ} {rid : UUID} {registration : ModelServiceRegistration}
      {scope : EnumInjectionScope} (hnew : s.pending task = none)
      (hregistration : s.registry.registrations rid = some registration)
      (hlifecycle : registration.lifecycle = .singleton) (hfree : s.holder = none)
      (hexisting : s.registry.existing rid = none) :
      Moves s e
        { s with
          holder := some task
          pending := Function.update s.pending task (some ⟨rid, .singleton, scope, .creating⟩) } []
  /-- a resolution has to wait for the lock -/
  | queued {e : Event Obj} {task : ℕ} {rid : UUID} {registration : ModelServiceRegistration}
      {scope : EnumInjectionScope} (hnew : s.pending task = none)
      (hregistration : s.registry.registrations rid = some registration)
      (hlifecycle : registration.lifecycle = .singleton) :
      Moves s e
        { s with
          waiters := s.waiters ++ [task]
          pending := Function.update s.pending task (some ⟨rid, .singleton, scope, .waiting⟩) } []
  /-- the next resolution gets the lock and finds an instance -/
  | wokenReturned {e : Event Obj} {task : ℕ} {rest : List ℕ} {p : Pending}
      {i : ModelServiceInstance Obj} (hfree : s.holder = none) (hwaiters : s.waiters = task :: rest)
      (hpending : s.pending task = some p) (hexisting : s.registry.existing p.rid = some i) :
      Moves s e { s with waiters := rest, pending := Function.update s.pending task none }
        [.resolved p.rid i.obj]
  /-- the next resolution gets the lock and calls the factory -/
  | wokenEntered {e : Event Obj} {task : ℕ} {rest : List ℕ} {p : Pending}
      (hfree : s.holder = none) (hwaiters : s.waiters = task :: rest)
      (hpending : s.pending task = some p) (hexisting : s.registry.existing p.rid = none) :
      Moves s e
        { s with
          holder := some task
          waiters := rest
          pending := Function.update s.pending task (some { p with phase := .creating }) } []
  /-- a factory fails -/
  | failed {e : Event Obj} {task : ℕ} {p : Pending} (hpending : s.pending task = some p)
      (hcreating : p.phase = .creating) :
      Moves s e
        { s with
          holder := if s.holder = some task then none else s.holder
          pending := Function.update s.pending task none } []
  /-- a factory completes -/
  | finished {e : Event Obj} {task : ℕ} {p : Pending} (obj : Obj)
      (hpending : s.pending task = some p) (hcreating : p.phase = .creating) :
      Moves s e
        { s with
          registry := s.registry.storeInstance p.rid obj p.lifecycle p.scope
          holder := if s.holder = some task then none else s.holder
          pending := Function.update s.pending task none }
        [.created p.rid obj, .stored p.rid (s.registry.registrations p.rid).isSome,
          .resolved p.rid (some obj)]

section
variable {s : EventLoop Obj}

variable {rid : UUID}

theorem moves_begin {e : Event Obj} {task : ℕ}
    {registration : ModelServiceRegistration} (scope : EnumInjectionScope)
    (hnew : s.pending task = none) (hregistration : s.registry.registrations rid = some registration) :
    Moves s e (s.begin task rid registration scope).1 (s.begin task rid registration scope).2 := by
  unfold EventLoop.begin ServiceRegistry.beginResolve
  cases hlifecycle : registration.lifecycle with
  | singleton =>
    cases hexisting : s.registry.existing rid with
    | some i => exact .returned hexisting
    | none =>
      dsimp only
      by_cases hfactory : (s.registry.factories rid).isSome = true
      · rw [if_pos hfactory]
        dsimp only
        by_cases hlock : s.holder = none ∧ s.waiters = []
        · have hcheck : s.registry.checkAgain rid = .create := by
            unfold ServiceRegistry.checkAgain
            rw [hexisting]
          rw [if_pos hlock, EventLoop.enter, hcheck]
          exact .entered hnew hregistration hlifecycle hlock.1 hexisting
        · rw [if_neg hlock]
          exact .queued hnew hregistration hlifecycle
      · rw [if_neg hfactory]
        exact .idle
  | transient =>
    dsimp only
    by_cases hfactory : (s.registry.factories rid).isSome = true
    · rw [if_pos hfactory]
      exact .transient hnew hregistration hlifecycle
    · rw [if_neg hfactory]
      exact .idle
  | _ => exact .idle

theorem moves_wake {e : Event Obj} {task : ℕ} {rest : List ℕ} {p : Pending}
    (hfree : s.holder = none) (hwaiters : s.waiters = task :: rest)
    (hpending : s.pending task = some p) :
    Moves s e ({ s with waiters := rest }.enter task p).1 ({ s with waiters := rest }.enter task p).2 := by
  unfold EventLoop.enter ServiceRegistry.checkAgain
  cases hexisting : s.registry.existing p.rid with
  | some i => exact .wokenReturned hfree hwaiters hpending hexisting
  | none => exact .wokenEntered hfree hwaiters hpending hexisting

theorem moves_unregister :
    Moves s (.unregisterService rid) { s with registry := (s.registry.unregisterService rid).2 } [] := by
  unfold ServiceRegistry.unregisterService
  cases hregistration : s.registry.registrations rid with
  | none => exact .idle
  | some registration =>
    have hgone : ∀ other, other ≠ rid →
        Function.update s.registry.instances rid none other = s.registry.instances other :=
      fun other hid => Function.update_of_ne hid ..
    have hempty : ∀ r : ServiceRegistry Obj,
        r.instances = Function.update s.registry.instances rid none →
        (r.stock rid).length ≤ (s.registry.stock rid).length := by
      intro r hr
      unfold ServiceRegistry.stock
      rw [hr, Function.update_self]
      exact Nat.zero_le _
    have hremoved : ∀ other, Function.update s.registry.registrations rid none other
        = s.registry.registrations other ∨ (Event.unregisterService rid : Event Obj)
          = .unregisterService rid ∧ other = rid ∧
          Function.update s.registry.registrations rid none other = none := by
      intro other
      by_cases hid : other = rid
      · exact Or.inr ⟨rfl, hid, by rw [hid, Function.update_self]⟩
      · exact Or.inl (Function.update_of_ne hid ..)
    dsimp only
    cases s.registry.interfaceMap registration.serviceInterface with
    | none => exact .disposed rid rfl hremoved hgone (hempty _ rfl)
    | some ids =>
      dsimp only
      by_cases hmem : rid ∈ ids
      · rw [if_pos hmem]
        exact .disposed rid rfl hremoved hgone (hempty _ rfl)
      · rw [if_neg hmem]
        exact .disposed rid rfl (fun _ => Or.inl rfl) hgone (hempty _ rfl)

theorem moves_dispose {scope : Option EnumInjectionScope} :
    Moves s (.disposeInstances rid scope)
      { s with registry := (s.registry.disposeInstances rid scope).2 } [] := by
  unfold ServiceRegistry.disposeInstances
  cases hinstances : s.registry.instances rid with
  | none => exact .idle
  | some instances =>
    refine .disposed rid rfl (fun _ => Or.inl rfl)
      (fun other hid => Function.update_of_ne hid ..) ?_
    unfold ServiceRegistry.stock
    dsimp only
    rw [Function.update_self, hinstances, Option.getD_some, Option.getD_some]
    exact (List.length_filter_le ..).trans (List.length_map ..).le

theorem moves_registerFactory {interfaceName factoryType : String}
    {lifecycle : EnumServiceLifecycle} {scope : EnumInjectionScope} :
    Moves s (.registerFactory rid interfaceName factoryType lifecycle scope)
      { s with
        registry := (s.registry.registerFactory rid interfaceName factoryType lifecycle scope).2 }
      [] := by
  unfold ServiceRegistry.registerFactory
  split_ifs
  · exact .registered rid _ rfl (fun _ _ => rfl) (fun h => ⟨h rfl, rfl⟩)
      (fun o ho => absurd ho List.not_mem_nil)
  · exact .idle

theorem moves_registerInstance {rid : UUID} {interfaceName instanceType : String} {obj : Obj}
    {scope : EnumInjectionScope} :
    Moves s (.registerInstance rid interfaceName instanceType obj scope)
      { s with registry := s.registry.registerInstance rid interfaceName instanceType obj scope }
      [.stored rid true] :=
  .registered rid _ rfl (fun _ hid => Function.update_of_ne hid ..) (fun h => absurd rfl h)
    (fun _ ho => List.mem_singleton.mp ho)

theorem moves_registerService {lazyLoadingEnabled : Bool}
    {interfaceName implName : String} {lifecycle : EnumServiceLifecycle}
    {scope : EnumInjectionScope} {created : Except RegistryError Obj} :
    Moves s (.registerService rid interfaceName implName lifecycle scope created)
      (s.step lazyLoadingEnabled
        (.registerService rid interfaceName implName lifecycle scope created)).1
      (s.step lazyLoadingEnabled
        (.registerService rid interfaceName implName lifecycle scope created)).2 := by
  have hregistered : ∀ registration, (Function.update s.registry.registrations rid
      (some registration) rid).isSome = true := fun registration => by
    rw [Function.update_self]
    rfl
  unfold EventLoop.step EventLoop.stored ServiceRegistry.registerService
  dsimp only
  by_cases heager : ¬ lazyLoadingEnabled = true ∧ lifecycle = .singleton
  · rw [if_pos heager]
    cases created with
    | error e =>
      refine .registered rid _ rfl (fun _ _ => rfl) (fun h => absurd rfl h) (fun o ho => ?_)
      simp [Except.isOk, Except.toBool] at ho
    | ok obj =>
      refine .registered rid _ rfl (fun other hid => Function.update_of_ne hid ..)
        (fun h => absurd rfl h) (fun o ho => ?_)
      dsimp only at ho
      split_ifs at ho
      · rw [List.mem_singleton.mp ho]
        exact congrArg _ (hregistered _)
      · cases ho
  · rw [if_neg heager]
    refine .registered rid _ rfl (fun _ _ => rfl) (fun h => absurd rfl h) (fun o ho => ?_)
    rw [if_neg (fun h => heager ⟨h.1, h.2.1⟩)] at ho
    cases ho

/-- Every event makes one of the moves. -/
theorem moves_step (lazyLoadingEnabled : Bool) (s : EventLoop Obj) (e : Event Obj) :
    Moves s e (s.step lazyLoadingEnabled e).1 (s.step lazyLoadingEnabled e).2 := by
  cases e with
  | registerService => exact moves_registerService
  | registerInstance rid interfaceName instanceType obj scope =>
    have hmoves := @moves_registerInstance Obj s rid interfaceName instanceType obj scope
    have hstored : ({ s with registry :=
        s.registry.registerInstance rid interfaceName instanceType obj scope }
          : EventLoop Obj).stored rid = .stored rid true := by
      unfold EventLoop.stored
      refine congrArg _ ?_
      show (Function.update s.registry.registrations rid (some _) rid).isSome = true
      rw [Function.update_self]
      rfl
    unfold EventLoop.step
    dsimp only
    rw [hstored]
    exact hmoves
  | registerFactory => exact moves_registerFactory
  | unregisterService rid => exact moves_unregister
  | disposeInstances rid scope => exact moves_dispose
  | begin task call k scope =>
    unfold EventLoop.step
    dsimp only
    cases hnew : s.pending task with
    | some p => exact .idle
    | none =>
      cases s.registry.targets call with
      | error e => exact .idle
      | ok rids =>
        dsimp only
        cases rids[k]? with
        | none => exact .idle
        | some rid =>
          dsimp only
          cases hregistration : s.registry.registrations rid with
          | none => exact .idle
          | some registration => exact moves_begin _ hnew hregistration
  | wake =>
    unfold EventLoop.step
    dsimp only
    cases hfree : s.holder with
    | some h => exact .idle
    | none =>
      cases hwaiters : s.waiters with
      | nil => exact .idle
      | cons task rest =>
        dsimp only
        cases hpending : s.pending task with
        | none => exact .idle
        | some p =>
          have hmoves := moves_wake (e := .wake) hfree hwaiters hpending
          rw [hfree] at hmoves
          exact hmoves
  | finish task result =>
    unfold EventLoop.step
    dsimp only
    cases hpending : s.pending task with
    | none => exact .idle
    | some p =>
      dsimp only
      split_ifs with hcreating
      · unfold EventLoop.finish
        cases result with
        | error e => exact .failed hpending hcreating
        | ok obj => exact .finished obj hpending hcreating
      · exact .idle

end

end OmnibaseCore.Registry
