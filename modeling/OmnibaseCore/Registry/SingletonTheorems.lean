import OmnibaseCore.Registry.Moves

/-!
# Factories of singletons

The factory of a singleton is called with the lock held, and not before a second look for an
instance. But neither the lock nor the look is about the registration: when it is taken out while
the factory runs, the instance is stored for an id that is no longer registered.

* `SingletonInv.period`: between two disposals all resolutions of a registration return the same
  instance, and its factory completes once at most, in every run.
* `singletonLaw`: if registrations are taken out only while none of their resolutions waits, no
  instance is stored for an id that is not registered. A registration that is taken out
  while one waits can always be brought to have one stored.
-/

namespace OmnibaseCore.Registry

variable {Obj : Type}

open EventLoop

/-! ## Statements -/

/-- The steps register `rid` as a factory of a singleton, if at all. -/
def SingletonFactory (rid : UUID) (events : List (Event Obj)) : Prop :=
  ∀ e ∈ events, e.SingletonFactoryOnly rid

/-- A factory of `rid` completes. -/
def Output.isCreated (rid : UUID) : Output Obj → Bool
  | .created id _ => id = rid
  | _ => false

/-- What is promised of factories, of all runs that begin with an empty registry. -/
structure SingletonLaw (lazyLoadingEnabled : Bool) (events : List (Event Obj)) : Prop where
  /-- between two disposals all resolutions return the same instance -/
  same : ∀ rid, SingletonFactory rid events → ∀ before period after,
    events = before ++ period ++ after → (∀ e ∈ period, ¬ e.Disposes rid) →
    ∀ obj obj',
      .resolved rid obj ∈
        (runFrom lazyLoadingEnabled (runFrom lazyLoadingEnabled {} before).1 period).2 →
      .resolved rid obj' ∈
        (runFrom lazyLoadingEnabled (runFrom lazyLoadingEnabled {} before).1 period).2 →
      obj = obj'
  /-- between two disposals the factory completes once at most -/
  once : ∀ rid, SingletonFactory rid events → ∀ before period after,
    events = before ++ period ++ after → (∀ e ∈ period, ¬ e.Disposes rid) →
    ((runFrom lazyLoadingEnabled (runFrom lazyLoadingEnabled {} before).1 period).2.countP
      (Output.isCreated rid)) ≤ 1
  /-- instances are stored for registered ids only -/
  stored_registered : ∀ rid registered,
    .stored rid registered ∈ (runFrom lazyLoadingEnabled {} events).2 → registered = true

/-- No resolution of `rid` waits, for the lock or for the factory. -/
def EventLoop.Idle (s : EventLoop Obj) (rid : UUID) : Prop :=
  ∀ task p, s.pending task = some p → p.rid ≠ rid

/-- Registrations are taken out only while none of their resolutions waits. -/
def UnregistersIdle (lazyLoadingEnabled : Bool) (events : List (Event Obj)) : Prop :=
  ∀ before rid after, events = before ++ .unregisterService rid :: after →
    (runFrom lazyLoadingEnabled {} before).1.Idle rid

/-! ## Invariants -/

section
variable {s s' : EventLoop Obj} {e : Event Obj} {outputs : List (Output Obj)} {rid : UUID}

theorem existing_eq_none_iff {r : ServiceRegistry Obj} : r.existing rid = none ↔ r.stock rid = [] :=
  List.head?_eq_none_iff

/-- What holds of a registration that is only ever registered as a factory of a singleton. While
its factory runs, the lock is held and no instance is stored. -/
structure SingletonInv (rid : UUID) (s : EventLoop Obj) : Prop where
  registered : ∀ registration, s.registry.registrations rid = some registration →
    registration.lifecycle = .singleton
  stock_le : (s.registry.stock rid).length ≤ 1
  pending_singleton : ∀ task p, s.pending task = some p → p.rid = rid → p.lifecycle = .singleton
  creating : ∀ task p, s.pending task = some p → p.rid = rid → p.phase = .creating →
    s.holder = some task ∧ s.registry.stock rid = []

theorem singletonInv_empty : SingletonInv rid ({} : EventLoop Obj) where
  registered := fun _ h => nomatch h
  stock_le := Nat.zero_le 1
  pending_singleton := fun _ _ h => nomatch h
  creating := fun _ _ h => nomatch h

/-- The tasks that wait for the lock are those in its queue, each once, and the task that has it
waits for a factory. -/
structure LockInv (s : EventLoop Obj) : Prop where
  waiting_iff : ∀ task, task ∈ s.waiters ↔ ∃ p, s.pending task = some p ∧ p.phase = .waiting
  nodup : s.waiters.Nodup
  holder_creating : ∀ task, s.holder = some task →
    ∃ p, s.pending task = some p ∧ p.phase = .creating

theorem stock_storeInstance (r : ServiceRegistry Obj) (rid other : UUID) (obj : Obj)
    (lifecycle : EnumServiceLifecycle) (scope : EnumInjectionScope) :
    (r.storeInstance rid obj lifecycle scope).stock other
      = if other = rid then r.stock rid ++ [{ obj := some obj, lifecycle, scope }]
        else r.stock other := by
  show (Function.update r.instances rid _ other).getD [] = _
  by_cases h : other = rid
  · rw [if_pos h, h, Function.update_self, Option.getD_some]
    rfl
  · rw [if_neg h, Function.update_of_ne h]
    rfl

variable {task : ℕ}

/-- A step that changes what one task is waiting for, and leaves the registry alone. -/
theorem SingletonInv.update (h : SingletonInv rid s) {q : Option Pending}
    (hregistry : s'.registry = s.registry) (hpending : s'.pending = Function.update s.pending task q)
    (hnew : ∀ p, q = some p → p.rid = rid → p.lifecycle = .singleton ∧
      (p.phase = .creating → s'.holder = some task ∧ s.registry.stock rid = []))
    (hholder : ∀ other, other ≠ task → s.holder = some other → s'.holder = some other) :
    SingletonInv rid s' := by
  refine ⟨hregistry ▸ h.registered, hregistry ▸ h.stock_le, fun other p hp hpid => ?_,
    fun other p hp hpid hphase => ?_⟩ <;> rw [hpending] at hp <;>
    rcases update_eq_some hp with ⟨hother, hp⟩ | ⟨hother, hp⟩
  · exact h.pending_singleton other p hp hpid
  · exact (hnew p hp hpid).1
  · obtain ⟨hheld, hempty⟩ := h.creating other p hp hpid hphase
    exact ⟨hholder other hother hheld, hregistry ▸ hempty⟩
  · rw [hregistry, hother]
    exact (hnew p hp hpid).2 hphase

/-- A step keeps the invariant of a singleton. -/
theorem SingletonInv.step (h : SingletonInv rid s) (he : e.SingletonFactoryOnly rid)
    (hmoves : Moves s e s' outputs) : SingletonInv rid s' := by
  cases hmoves with
  | idle => exact h
  | returned hexisting => exact h
  | @registered registry _ id registration hregistrations hinstances hfactory houtputs =>
    -- a factory for a singleton stores no instance yet
    have hstock : registry.stock rid = s.registry.stock rid := by
      unfold ServiceRegistry.stock
      by_cases hid : rid = id
      · rw [(hfactory (by rw [← hid]; exact he)).2]
      · rw [hinstances rid hid]
    refine ⟨fun registration' hregistration' => ?_, ?_, h.pending_singleton,
      fun task p hp hpid hphase => ?_⟩
    · dsimp only at hregistration'
      rw [hregistrations] at hregistration'
      rcases update_eq_some hregistration' with ⟨-, hold⟩ | ⟨hid, hnew⟩
      · exact h.registered registration' hold
      · rw [← Option.some.inj hnew]
        exact (hfactory (by rw [← hid]; exact he)).1
    · dsimp only
      rw [hstock]
      exact h.stock_le
    · dsimp only
      rw [hstock]
      exact h.creating task p hp hpid hphase
  | @disposed registry id he' hregistrations hinstances hstock =>
    have hle : (registry.stock rid).length ≤ (s.registry.stock rid).length := by
      by_cases hid : rid = id
      · rw [hid]
        exact hstock
      · unfold ServiceRegistry.stock
        rw [hinstances rid hid]
    refine ⟨fun registration' hregistration' => ?_, hle.trans h.stock_le, h.pending_singleton,
      fun task p hp hpid hphase => ?_⟩
    · rcases hregistrations rid with hsame | ⟨-, -, hnone⟩
      · exact h.registered registration' (hsame.symm.trans hregistration')
      · exact nomatch hnone.symm.trans hregistration'
    · obtain ⟨hholder, hempty⟩ := h.creating task p hp hpid hphase
      rw [hempty] at hle
      exact ⟨hholder, List.length_eq_zero_iff.mp (Nat.le_zero.mp hle)⟩
  | @transient task id registration scope hnew hregistration hlifecycle =>
    -- a transient service is not the singleton
    have hother : id ≠ rid := by
      intro hid
      rw [hid] at hregistration
      have hsingleton := h.registered registration hregistration
      rw [hlifecycle] at hsingleton
      cases hsingleton
    refine h.update rfl rfl (fun p hp hpid => ?_) fun _ _ hheld => hheld
    rw [← Option.some.inj hp] at hpid
    exact absurd hpid hother
  | @entered task id registration scope hnew hregistration hlifecycle hfree hexisting =>
    refine h.update rfl rfl (fun p hp hpid => ?_) fun _ _ hheld => nomatch hfree.symm.trans hheld
    rw [← Option.some.inj hp] at hpid ⊢
    exact ⟨rfl, fun _ => ⟨rfl, hpid ▸ existing_eq_none_iff.mp hexisting⟩⟩
  | @queued task id registration scope hnew hregistration hlifecycle =>
    refine h.update rfl rfl (fun p hp hpid => ?_) fun _ _ hheld => hheld
    rw [← Option.some.inj hp]
    exact ⟨rfl, fun hphase => nomatch hphase⟩
  | @wokenReturned task rest q i hfree hwaiters hpending hexisting =>
    exact h.update rfl rfl (fun p hp => nomatch hp) fun _ _ hheld => hheld
  | @wokenEntered task rest q hfree hwaiters hpending hexisting =>
    refine h.update rfl rfl (fun p hp hpid => ?_) fun _ _ hheld => nomatch hfree.symm.trans hheld
    rw [← Option.some.inj hp] at hpid ⊢
    exact ⟨h.pending_singleton task q hpending hpid,
      fun _ => ⟨rfl, hpid ▸ existing_eq_none_iff.mp hexisting⟩⟩
  | @failed task q hpending hcreating =>
    refine h.update rfl rfl (fun p hp => nomatch hp) fun other hother hheld => ?_
    dsimp only
    rw [hheld, if_neg fun hsame => hother (Option.some.inj hsame)]
  | @finished task q obj hpending hcreating =>
    have hstock := stock_storeInstance s.registry q.rid rid obj q.lifecycle q.scope
    refine ⟨h.registered, ?_, fun task' p hp hpid => ?_, fun task' p hp hpid hphase => ?_⟩
    · dsimp only
      rw [hstock]
      by_cases hid : rid = q.rid
      · rw [if_pos hid, ← hid, (h.creating task q hpending hid.symm hcreating).2]
        exact Nat.le_refl 1
      · rw [if_neg hid]
        exact h.stock_le
    · rcases update_eq_some hp with ⟨-, hp⟩ | ⟨-, hp⟩
      · exact h.pending_singleton task' p hp hpid
      · cases hp
    · rcases update_eq_some hp with ⟨htask, hp⟩ | ⟨-, hp⟩
      · obtain ⟨hholder, hempty⟩ := h.creating task' p hp hpid hphase
        have hid : rid ≠ q.rid := by
          intro hid
          have hholder' := (h.creating task q hpending hid.symm hcreating).1
          exact htask (Option.some.inj (hholder.symm.trans hholder'))
        dsimp only
        rw [hstock, if_neg hid, hholder, if_neg (fun hsame => htask (Option.some.inj hsame))]
        exact ⟨rfl, hempty⟩
      · cases hp

/-! ## A period without disposals -/

/-- What has been seen of a registration since it was last disposed of: nothing, if no instance
is stored, and else the stored instance only. -/
structure Settled (rid : UUID) (s : EventLoop Obj) (seen : List (Output Obj)) : Prop where
  nothing : s.registry.stock rid = [] →
    (∀ obj, .resolved rid obj ∉ seen) ∧ seen.countP (Output.isCreated rid) = 0
  instance_seen : ∀ i, s.registry.existing rid = some i →
    (∀ obj, .resolved rid obj ∈ seen → obj = i.obj) ∧ seen.countP (Output.isCreated rid) ≤ 1

theorem settled_nil : Settled rid s [] where
  nothing := fun _ => ⟨fun _ => List.not_mem_nil, rfl⟩
  instance_seen := fun _ _ => ⟨fun _ h => absurd h List.not_mem_nil, Nat.zero_le 1⟩

variable {seen : List (Output Obj)}

theorem Settled.append (h : Settled rid s seen)
    (hstock : s'.registry.stock rid = s.registry.stock rid)
    (hresolved : ∀ obj, .resolved rid obj ∉ outputs)
    (hcreated : ∀ o ∈ outputs, Output.isCreated rid o = false) :
    Settled rid s' (seen ++ outputs) := by
  have hcount : (seen ++ outputs).countP (Output.isCreated rid)
      = seen.countP (Output.isCreated rid) := by
    have hzero : outputs.countP (Output.isCreated rid) = 0 := by
      rw [List.countP_eq_zero]
      intro o ho
      rw [hcreated o ho]
      exact Bool.false_ne_true
    rw [List.countP_append, hzero, Nat.add_zero]
  have hexisting : s'.registry.existing rid = s.registry.existing rid := congrArg List.head? hstock
  refine ⟨fun hnil => ?_, fun i hi => ?_⟩
  · obtain ⟨hnone, hzero⟩ := h.nothing (hstock ▸ hnil)
    refine ⟨fun obj hmem => ?_, hcount.trans hzero⟩
    exact (List.mem_append.mp hmem).elim (hnone obj) (hresolved obj)
  · obtain ⟨hsame, hle⟩ := h.instance_seen i (hexisting ▸ hi)
    refine ⟨fun obj hmem => ?_, hcount.le.trans hle⟩
    exact (List.mem_append.mp hmem).elim (hsame obj) (fun hout => absurd hout (hresolved obj))

/-- A resolution returns the stored instance of its registration. -/
theorem Settled.resolved {id : UUID} {i : ModelServiceInstance Obj}
    (h : Settled rid s seen) (hregistry : s'.registry = s.registry)
    (hexisting : s.registry.existing id = some i) :
    Settled rid s' (seen ++ [.resolved id i.obj]) := by
  by_cases hid : id = rid
  · rw [hid] at hexisting ⊢
    refine ⟨fun hnil => ?_, fun j hj => ?_⟩
    · rw [hregistry, ← existing_eq_none_iff, hexisting] at hnil
      cases hnil
    · rw [hregistry, hexisting] at hj
      obtain rfl := Option.some.inj hj
      obtain ⟨hsame, hle⟩ := h.instance_seen i hexisting
      refine ⟨fun obj hmem => ?_, ?_⟩
      · rcases List.mem_append.mp hmem with hmem | hmem
        · exact hsame obj hmem
        · injection List.mem_singleton.mp hmem
      · rw [List.countP_append]
        exact hle
  · refine h.append (congrArg (fun r => r.stock rid) hregistry) (fun obj hmem => ?_) (fun o ho => ?_)
    · injection List.mem_singleton.mp hmem with hsame
      exact hid hsame.symm
    · rw [List.mem_singleton.mp ho]
      rfl

/-- A step within the period. -/
theorem SingletonInv.period (h : SingletonInv rid s)
    (hsettled : Settled rid s seen) (he : e.SingletonFactoryOnly rid) (hkeeps : ¬ e.Disposes rid)
    (hmoves : Moves s e s' outputs) : Settled rid s' (seen ++ outputs) := by
  have hquiet : ∀ {s'' : EventLoop Obj}, s''.registry = s.registry → Settled rid s'' (seen ++ []) :=
    fun hregistry => hsettled.append (congrArg (fun r => r.stock rid) hregistry)
      (fun _ => List.not_mem_nil) (fun _ ho => absurd ho List.not_mem_nil)
  cases hmoves with
  | idle => exact hquiet rfl
  | returned hexisting => exact hsettled.resolved rfl hexisting
  | @registered registry _ id registration hregistrations hinstances hfactory houtputs =>
    refine hsettled.append ?_ (fun obj hmem => ?_) (fun o ho => ?_)
    · show (registry.instances rid).getD [] = (s.registry.instances rid).getD []
      by_cases hid : rid = id
      · rw [(hfactory (by rw [← hid]; exact he)).2]
      · rw [hinstances rid hid]
    · cases houtputs _ hmem
    · rw [houtputs o ho]
      rfl
  | @disposed registry id he' hregistrations hinstances hstock =>
    have hid : rid ≠ id := fun hid => hkeeps (by rw [hid]; exact he')
    refine hsettled.append ?_ (fun _ => List.not_mem_nil) (fun _ ho => absurd ho List.not_mem_nil)
    show (registry.instances rid).getD [] = (s.registry.instances rid).getD []
    rw [hinstances rid hid]
  | transient => exact hquiet rfl
  | entered => exact hquiet rfl
  | queued => exact hquiet rfl
  | wokenReturned hfree hwaiters hpending hexisting => exact hsettled.resolved rfl hexisting
  | wokenEntered => exact hquiet rfl
  | failed => exact hquiet rfl
  | @finished task q obj hpending hcreating =>
    have hstock := stock_storeInstance s.registry q.rid rid obj q.lifecycle q.scope
    by_cases hid : rid = q.rid
    · -- nothing has been stored, and so nothing seen, before the factory completes
      have hempty := (h.creating task q hpending hid.symm hcreating).2
      obtain ⟨hnone, hzero⟩ := hsettled.nothing hempty
      rw [if_pos hid, ← hid, hempty, List.nil_append] at hstock
      refine ⟨fun hnil => ?_, fun i hi => ?_⟩
      · rw [← hid, hstock] at hnil
        cases hnil
      · have hexisting : (s.registry.storeInstance rid obj q.lifecycle q.scope).existing rid
            = some { obj := some obj, lifecycle := q.lifecycle, scope := q.scope } :=
          congrArg List.head? hstock
        rw [← hid, hexisting] at hi
        obtain rfl := Option.some.inj hi
        refine ⟨fun obj' hmem => ?_, ?_⟩
        · rcases List.mem_append.mp hmem with hmem | hmem
          · exact absurd hmem (hnone obj')
          · have hlast : rid = q.rid ∧ obj' = some obj := by simpa using hmem
            exact hlast.2
        · -- only the first of the three outputs counts
          rw [List.countP_append, hzero, Nat.zero_add, List.countP_cons]
          have hrest : [Output.stored q.rid (s.registry.registrations q.rid).isSome,
              Output.resolved q.rid (some obj)].countP (Output.isCreated rid) = 0 := rfl
          rw [hrest, Nat.zero_add]
          split <;> omega
    · rw [if_neg hid] at hstock
      refine hsettled.append hstock (fun obj' hmem => ?_) (fun o ho => ?_)
      · simp [hid] at hmem
      · simp only [List.mem_cons, List.not_mem_nil, or_false] at ho
        rcases ho with rfl | rfl | rfl
        · exact decide_eq_false (Ne.symm hid)
        · rfl
        · rfl

/-! ## Live resolutions -/

/-- What waits resolves a registered id. -/
def LiveInv (s : EventLoop Obj) : Prop :=
  ∀ task p, s.pending task = some p → (s.registry.registrations p.rid).isSome = true

/-- A step of a run in which registrations are taken out only while none of their resolutions
waits stores for registered ids. -/
theorem LiveInv.step (h : LiveInv s) (hidle : ∀ id, e = .unregisterService id → s.Idle id)
    (hmoves : Moves s e s' outputs) :
    LiveInv s' ∧ ∀ id registered, .stored id registered ∈ outputs → registered = true := by
  have hquiet : ∀ id registered, (.stored id registered : Output Obj) ∈ [] → registered = true :=
    fun _ _ hmem => absurd hmem List.not_mem_nil
  have hreturned : ∀ (rid : UUID) (obj : Option Obj) id registered,
      .stored id registered ∈ [Output.resolved rid obj] → registered = true :=
    fun _ _ _ _ hmem => nomatch List.mem_singleton.mp hmem
  have hnew : ∀ {task : ℕ} {p : Option Pending},
      (∀ q, p = some q → (s.registry.registrations q.rid).isSome = true) →
      ∀ other q, Function.update s.pending task p other = some q →
        (s.registry.registrations q.rid).isSome = true := by
    intro task p hp other q hq
    rcases update_eq_some hq with ⟨-, hq⟩ | ⟨-, hq⟩
    · exact h other q hq
    · exact hp q hq
  have hsome : ∀ {q q' : Pending}, (s.registry.registrations q.rid).isSome = true →
      some q = some q' → (s.registry.registrations q'.rid).isSome = true := by
    intro q q' hq hsame
    rw [← Option.some.inj hsame]
    exact hq
  cases hmoves with
  | idle => exact ⟨h, hquiet⟩
  | returned => exact ⟨h, hreturned _ _⟩
  | @registered registry _ id registration hregistrations hinstances hfactory houtputs =>
    refine ⟨fun task p hp => ?_, fun other registered hmem => ?_⟩
    · show (registry.registrations p.rid).isSome = true
      rw [hregistrations]
      by_cases hid : p.rid = id
      · rw [hid, Function.update_self]
        rfl
      · rw [Function.update_of_ne hid]
        exact h task p hp
    · injection houtputs _ hmem
  | @disposed registry id he hregistrations hinstances hstock =>
    refine ⟨fun task p hp => ?_, hquiet⟩
    show (registry.registrations p.rid).isSome = true
    rcases hregistrations p.rid with hsame | ⟨hunregister, hid, -⟩
    · rw [hsame]
      exact h task p hp
    · exact absurd hid (hidle id hunregister task p hp)
  | transient hfree hregistration => exact ⟨hnew fun q => hsome (by simp [hregistration]), hquiet⟩
  | entered hfree hregistration => exact ⟨hnew fun q => hsome (by simp [hregistration]), hquiet⟩
  | queued hfree hregistration => exact ⟨hnew fun q => hsome (by simp [hregistration]), hquiet⟩
  | wokenReturned => exact ⟨hnew fun _ hq => (nomatch hq), hreturned _ _⟩
  | @wokenEntered task rest q hfree hwaiters hpending =>
    exact ⟨hnew fun q' hq' => by rw [← Option.some.inj hq']; exact h task q hpending, hquiet⟩
  | failed => exact ⟨hnew fun _ hq => (nomatch hq), hquiet⟩
  | @finished task q obj hpending =>
    refine ⟨hnew fun _ hq => (nomatch hq), fun id registered hmem => ?_⟩
    have hstored : id = q.rid ∧ registered = (s.registry.registrations q.rid).isSome := by
      simpa using hmem
    rw [hstored.2]
    exact h task q hpending

/-! ## The queue of the lock -/

variable {p : Option Pending}

section
variable (h : LockInv s)
include h

section
variable (hp : ∀ q, p = some q → q.phase ≠ .waiting)
include hp

/-- A task leaves the queue, if it is in it, and does not wait for the lock any more. -/
theorem LockInv.leave {waiters : List ℕ}
    (hwaiters : ∀ other, other ∈ waiters ↔ other ≠ task ∧ other ∈ s.waiters) :
    ∀ other, other ∈ waiters ↔
      ∃ q, Function.update s.pending task p other = some q ∧ q.phase = .waiting := by
  intro other
  rw [hwaiters, h.waiting_iff]
  by_cases hother : other = task
  · rw [hother, Function.update_self]
    exact ⟨fun hne => absurd rfl hne.1, fun ⟨q, hq, hphase⟩ => absurd hphase (hp q hq)⟩
  · rw [Function.update_of_ne hother]
    exact and_iff_right hother

theorem LockInv.leave_of_ne (htask : ∀ q, s.pending task = some q → q.phase ≠ .waiting) :
    ∀ other, other ∈ s.waiters ↔
      ∃ q, Function.update s.pending task p other = some q ∧ q.phase = .waiting := by
  refine h.leave hp (fun other => ⟨fun hmem => ⟨fun hother => ?_, hmem⟩, fun hmem => hmem.2⟩)
  obtain ⟨q, hq, hphase⟩ := (h.waiting_iff other).mp hmem
  exact htask q (hother ▸ hq) hphase

theorem LockInv.leave_head {rest : List ℕ} (hwaiters : s.waiters = task :: rest) :
    ∀ other, other ∈ rest ↔
      ∃ q, Function.update s.pending task p other = some q ∧ q.phase = .waiting := by
  have hnodup := h.nodup
  rw [hwaiters, List.nodup_cons] at hnodup
  refine h.leave hp (fun other => ?_)
  rw [hwaiters, List.mem_cons]
  refine ⟨fun hmem => ⟨fun hother => hnodup.1 (hother ▸ hmem), Or.inr hmem⟩, fun hmem => ?_⟩
  exact hmem.2.resolve_left hmem.1

end

theorem LockInv.holder_of_ne {task holder : ℕ}
    (htask : holder ≠ task) (hholder : s.holder = some holder) :
    ∃ q, Function.update s.pending task p holder = some q ∧ q.phase = .creating := by
  rw [Function.update_of_ne htask]
  exact h.holder_creating holder hholder

theorem LockInv.holder_release {task holder : ℕ}
    (hholder : (if s.holder = some task then none else s.holder) = some holder) :
    ∃ q, Function.update s.pending task none holder = some q ∧ q.phase = .creating := by
  by_cases htask : s.holder = some task
  · rw [if_pos htask] at hholder
    cases hholder
  · rw [if_neg htask] at hholder
    exact h.holder_of_ne (fun hsame => htask (hsame ▸ hholder)) hholder

/-- A step keeps the queue in order. -/
theorem LockInv.step (hmoves : Moves s e s' outputs) : LockInv s' := by
  have hnew : ∀ {task : ℕ}, s.pending task = none →
      ∀ q, s.pending task = some q → q.phase ≠ .waiting := fun hnone q hq =>
    nomatch hnone.symm.trans hq
  have hcalls : ∀ {rid : UUID} {lifecycle : EnumServiceLifecycle} {scope : EnumInjectionScope},
      ∀ q, some (⟨rid, lifecycle, scope, .creating⟩ : Pending) = some q → q.phase ≠ .waiting := by
    intro rid lifecycle scope q hq
    rw [← Option.some.inj hq]
    exact fun hphase => nomatch hphase
  have hgone : ∀ q, (none : Option Pending) = some q → q.phase ≠ .waiting := fun _ hq => nomatch hq
  have hrun : ∀ {task : ℕ} {p : Pending}, s.pending task = some p → p.phase = .creating →
      ∀ q, s.pending task = some q → q.phase ≠ .waiting := by
    intro task p hp hcreating q hq hphase
    rw [hp] at hq
    rw [← Option.some.inj hq, hcreating] at hphase
    cases hphase
  cases hmoves with
  | idle => exact h
  | returned => exact h
  | registered => exact ⟨h.waiting_iff, h.nodup, h.holder_creating⟩
  | disposed => exact ⟨h.waiting_iff, h.nodup, h.holder_creating⟩
  | @transient task _ _ _ hnone =>
    refine ⟨h.leave_of_ne hcalls (hnew hnone), h.nodup, fun holder hholder => ?_⟩
    refine h.holder_of_ne (fun hsame => ?_) hholder
    obtain ⟨q, hq, -⟩ := h.holder_creating holder hholder
    rw [hsame, hnone] at hq
    cases hq
  | @entered task _ _ _ hnone =>
    refine ⟨h.leave_of_ne hcalls (hnew hnone), h.nodup, fun holder hholder => ?_⟩
    obtain rfl := Option.some.inj hholder
    exact ⟨_, Function.update_self .., rfl⟩
  | @queued task _ _ _ hnone =>
    have htask : task ∉ s.waiters := by
      intro hmem
      obtain ⟨q, hq, hphase⟩ := (h.waiting_iff task).mp hmem
      exact hnew hnone q hq hphase
    refine ⟨fun other => ?_, ?_, fun holder hholder => ?_⟩
    · dsimp only
      rw [List.mem_append, List.mem_singleton]
      by_cases hother : other = task
      · rw [hother, Function.update_self]
        exact iff_of_true (Or.inr rfl) ⟨_, rfl, rfl⟩
      · rw [Function.update_of_ne hother, ← h.waiting_iff]
        exact or_iff_left hother
    · exact List.Nodup.append h.nodup (List.nodup_singleton task)
        (List.disjoint_singleton.mpr htask)
    · refine h.holder_of_ne (fun hsame => ?_) hholder
      obtain ⟨q, hq, -⟩ := h.holder_creating holder hholder
      rw [hsame, hnone] at hq
      cases hq
  | @wokenReturned task rest _ _ hfree hwaiters =>
    refine ⟨h.leave_head hgone hwaiters, ?_, fun holder hholder => ?_⟩
    · exact (List.nodup_cons.mp (hwaiters ▸ h.nodup)).2
    · exact nomatch hfree.symm.trans hholder
  | @wokenEntered task rest _ hfree hwaiters =>
    refine ⟨h.leave_head hcalls hwaiters, ?_, fun holder hholder => ?_⟩
    · exact (List.nodup_cons.mp (hwaiters ▸ h.nodup)).2
    · obtain rfl := Option.some.inj hholder
      exact ⟨_, Function.update_self .., rfl⟩
  | @failed task q hpending hcreating =>
    refine ⟨h.leave_of_ne hgone (hrun hpending hcreating), h.nodup, fun _ => h.holder_release⟩
  | @finished task q obj hpending hcreating =>
    refine ⟨h.leave_of_ne hgone (hrun hpending hcreating), h.nodup, fun _ => h.holder_release⟩

end

/-! ## Runs -/

theorem runFrom_cons (lazyLoadingEnabled : Bool) (s : EventLoop Obj) (e : Event Obj)
    (l : List (Event Obj)) :
    runFrom lazyLoadingEnabled s (e :: l)
      = ((runFrom lazyLoadingEnabled (s.step lazyLoadingEnabled e).1 l).1,
        (s.step lazyLoadingEnabled e).2 ++
          (runFrom lazyLoadingEnabled (s.step lazyLoadingEnabled e).1 l).2) := rfl

theorem runFrom_append (lazyLoadingEnabled : Bool) (s : EventLoop Obj) (l l' : List (Event Obj)) :
    runFrom lazyLoadingEnabled s (l ++ l')
      = ((runFrom lazyLoadingEnabled (runFrom lazyLoadingEnabled s l).1 l').1,
        (runFrom lazyLoadingEnabled s l).2 ++
          (runFrom lazyLoadingEnabled (runFrom lazyLoadingEnabled s l).1 l').2) := by
  induction l generalizing s with
  | nil => rfl
  | cons e rest ih =>
    rw [List.cons_append, runFrom_cons, ih, runFrom_cons, List.append_assoc]

variable {lazyLoadingEnabled : Bool}

variable {events : List (Event Obj)}

theorem SingletonInv.run (h : SingletonInv rid s) (hevents : SingletonFactory rid events) :
    SingletonInv rid (runFrom lazyLoadingEnabled s events).1 := by
  induction events generalizing s with
  | nil => exact h
  | cons e rest ih =>
    have he := hevents e List.mem_cons_self
    exact ih (h.step he (moves_step lazyLoadingEnabled s e))
      (fun e' he' => hevents e' (List.mem_cons_of_mem e he'))

/-- A run within the period. -/
theorem Settled.run (h : Settled rid s seen) (hinv : SingletonInv rid s)
    (hevents : SingletonFactory rid events) (hkeeps : ∀ e ∈ events, ¬ e.Disposes rid) :
    Settled rid (runFrom lazyLoadingEnabled s events).1
      (seen ++ (runFrom lazyLoadingEnabled s events).2) := by
  induction events generalizing s seen with
  | nil =>
    show Settled rid s (seen ++ [])
    rw [List.append_nil]
    exact h
  | cons e rest ih =>
    have he := hevents e List.mem_cons_self
    have hmoves := moves_step lazyLoadingEnabled s e
    have hrest := ih (hinv.period h he (hkeeps e List.mem_cons_self) hmoves) (hinv.step he hmoves)
      (fun e' he' => hevents e' (List.mem_cons_of_mem e he'))
      (fun e' he' => hkeeps e' (List.mem_cons_of_mem e he'))
    rw [List.append_assoc] at hrest
    exact hrest

/-- All that is seen of a registration in a period is one instance, made once at most. -/
theorem Settled.single (h : Settled rid s seen) :
    (∀ obj obj', .resolved rid obj ∈ seen → .resolved rid obj' ∈ seen → obj = obj') ∧
      seen.countP (Output.isCreated rid) ≤ 1 := by
  cases hexisting : s.registry.existing rid with
  | none =>
    obtain ⟨hnone, hzero⟩ := h.nothing (existing_eq_none_iff.mp hexisting)
    exact ⟨fun obj _ hmem => absurd hmem (hnone obj), by omega⟩
  | some i =>
    obtain ⟨hsame, hle⟩ := h.instance_seen i hexisting
    exact ⟨fun obj obj' hmem hmem' => (hsame obj hmem).trans (hsame obj' hmem').symm, hle⟩

/-- Between two disposals all resolutions of a registration return the same instance, and its
factory completes once at most. -/
theorem SingletonInv.single {before period : List (Event Obj)}
    (hbefore : SingletonFactory rid before) (hperiod : SingletonFactory rid period)
    (hkeeps : ∀ e ∈ period, ¬ e.Disposes rid) :
    let seen := (runFrom lazyLoadingEnabled (runFrom lazyLoadingEnabled {} before).1 period).2
    (∀ obj obj', .resolved rid obj ∈ seen → .resolved rid obj' ∈ seen → obj = obj') ∧
      seen.countP (Output.isCreated rid) ≤ 1 := by
  have hinv : SingletonInv rid (runFrom lazyLoadingEnabled ({} : EventLoop Obj) before).1 :=
    singletonInv_empty.run hbefore
  exact (settled_nil.run hinv hperiod hkeeps).single

theorem liveInv_empty : LiveInv ({} : EventLoop Obj) := fun _ _ h => nomatch h

theorem factory_parts {events before period after : List (Event Obj)}
    (h : SingletonFactory rid events) (hevents : events = before ++ period ++ after) :
    SingletonFactory rid before ∧ SingletonFactory rid period := by
  rw [hevents] at h
  refine ⟨fun e he => h e ?_, fun e he => h e ?_⟩
  · exact List.mem_append_left _ (List.mem_append_left _ he)
  · exact List.mem_append_left _ (List.mem_append_right _ he)

theorem LiveInv.run (h : LiveInv s)
    (hidle : ∀ before id after, events = before ++ .unregisterService id :: after →
      (runFrom lazyLoadingEnabled s before).1.Idle id) :
    ∀ id registered, .stored id registered ∈ (runFrom lazyLoadingEnabled s events).2 →
      registered = true := by
  induction events generalizing s with
  | nil => exact fun _ _ hmem => absurd hmem List.not_mem_nil
  | cons e rest ih =>
    obtain ⟨hlive, hstored⟩ := h.step
      (fun id he => hidle [] id rest (by rw [he, List.nil_append]))
      (moves_step lazyLoadingEnabled s e)
    intro id registered hmem
    rcases List.mem_append.mp hmem with hmem | hmem
    · exact hstored id registered hmem
    · refine ih hlive (fun before id' after hrest => ?_) id registered hmem
      exact hidle (e :: before) id' after (by rw [hrest, List.cons_append])

theorem lockInv_empty : LockInv ({} : EventLoop Obj) where
  waiting_iff := fun _ => ⟨fun h => absurd h List.not_mem_nil, fun ⟨_, hq, _⟩ => nomatch hq⟩
  nodup := List.nodup_nil
  holder_creating := fun _ h => nomatch h

theorem LockInv.run (h : LockInv s) (lazyLoadingEnabled : Bool) (events : List (Event Obj)) :
    LockInv (runFrom lazyLoadingEnabled s events).1 := by
  induction events generalizing s with
  | nil => exact h
  | cons e rest ih => exact ih (h.step (moves_step lazyLoadingEnabled s e))

/-! ## A resolution of a registration that is taken out -/

theorem step_finish_ok {task : ℕ} {p : Pending} (hp : s.pending task = some p)
    (hcreating : p.phase = .creating) (hgone : s.registry.registrations p.rid = none) (obj : Obj) :
    .stored p.rid false ∈ (s.step lazyLoadingEnabled (.finish task (.ok obj))).2 := by
  unfold EventLoop.step
  dsimp only
  rw [hp]
  dsimp only
  rw [if_pos hcreating, EventLoop.finish, EventLoop.stored, hgone]
  simp

theorem step_finish_error {p : Pending} (hp : s.pending task = some p)
    (hcreating : p.phase = .creating) (hholder : s.holder = some task) (e : RegistryError) :
    (s.step lazyLoadingEnabled (.finish task (.error e))).1
      = { s with holder := none, pending := Function.update s.pending task none } := by
  unfold EventLoop.step
  dsimp only
  rw [hp]
  dsimp only
  rw [if_pos hcreating, EventLoop.finish, if_pos hholder]

theorem step_wake {task : ℕ} {rest : List ℕ} {p : Pending} (hfree : s.holder = none)
    (hwaiters : s.waiters = task :: rest) (hp : s.pending task = some p) :
    s.step lazyLoadingEnabled .wake = { s with waiters := rest }.enter task p := by
  unfold EventLoop.step
  dsimp only
  rw [hfree, hwaiters]
  dsimp only
  rw [hp]

theorem enter_frame {task : ℕ} {p : Pending} :
    (s.enter task p).1.registry = s.registry ∧ (s.enter task p).1.waiters = s.waiters ∧
      ∀ other, other ≠ task → (s.enter task p).1.pending other = s.pending other := by
  unfold EventLoop.enter
  cases s.registry.checkAgain p.rid with
  | returned obj => exact ⟨rfl, rfl, fun other hother => Function.update_of_ne hother ..⟩
  | raised e => exact ⟨rfl, rfl, fun other hother => Function.update_of_ne hother ..⟩
  | acquire => exact ⟨rfl, rfl, fun other hother => Function.update_of_ne hother ..⟩
  | create => exact ⟨rfl, rfl, fun other hother => Function.update_of_ne hother ..⟩

theorem LockInv.release (h : LockInv s) (lazyLoadingEnabled : Bool) :
    ∃ continuation, (∀ e ∈ continuation, e.GoesOn) ∧
      (runFrom lazyLoadingEnabled s continuation).1.holder = none ∧
      (runFrom lazyLoadingEnabled s continuation).1.registry = s.registry ∧
      (runFrom lazyLoadingEnabled s continuation).1.waiters = s.waiters ∧
      ∀ task ∈ s.waiters,
        (runFrom lazyLoadingEnabled s continuation).1.pending task = s.pending task := by
  cases hholder : s.holder with
  | none => exact ⟨[], by simp, hholder, rfl, rfl, fun _ _ => rfl⟩
  | some holder =>
    obtain ⟨p, hp, hcreating⟩ := h.holder_creating holder hholder
    refine ⟨[.finish holder (.error .keyError)], by simp [Event.GoesOn], ?_⟩
    rw [runFrom_cons, step_finish_error hp hcreating hholder]
    refine ⟨rfl, rfl, rfl, fun task htask => ?_⟩
    obtain ⟨q, hq, hwaiting⟩ := (h.waiting_iff task).mp htask
    refine Function.update_of_ne (fun hsame => ?_) ..
    rw [hsame, hp] at hq
    rw [Option.some.inj hq, hwaiting] at hcreating
    cases hcreating

/-- The tasks before it in the queue can be made to fail, and then the task that waits for the lock
gets it, calls the factory and stores what it makes. -/
theorem LockInv.stores {waiters : List ℕ} {p : Pending} (h : LockInv s)
    (hwaiters : s.waiters = waiters) (htask : task ∈ waiters) (hp : s.pending task = some p)
    (hgone : s.registry.registrations p.rid = none) (hexisting : s.registry.existing p.rid = none)
    (obj : Obj) :
    ∃ continuation, .stored p.rid false ∈ (runFrom lazyLoadingEnabled s continuation).2 := by
  induction waiters generalizing s with
  | nil => cases htask
  | cons first rest ih =>
    obtain ⟨release, -, hfree, hregistry, hqueue, hsame⟩ := h.release lazyLoadingEnabled
    have hinv := h.run lazyLoadingEnabled release
    generalize hfreed : (runFrom lazyLoadingEnabled s release).1 = freed at *
    have hfirst : first ∈ s.waiters := hwaiters ▸ List.mem_cons_self
    obtain ⟨q, hq, -⟩ := (hinv.waiting_iff first).mp (hqueue ▸ hfirst)
    have hwake := @step_wake _ _ lazyLoadingEnabled _ _ _ hfree (hqueue.trans hwaiters) hq
    obtain ⟨hregistry', hwaiters', hothers⟩ := @enter_frame _ { freed with waiters := rest } first q
    rw [← hregistry] at hgone hexisting
    by_cases hhead : task = first
    · -- its turn: there is no instance, and it calls the factory
      have hqp : q = p := by
        rw [hsame first hfirst, ← hhead, hp] at hq
        exact (Option.some.inj hq).symm
      have hcheck : freed.registry.checkAgain p.rid = .create := by
        unfold ServiceRegistry.checkAgain
        rw [hexisting]
      rw [hqp] at hwake hregistry'
      refine ⟨release ++ [.wake, .finish task (.ok obj)], ?_⟩
      rw [runFrom_append, hfreed, runFrom_cons, hwake, runFrom_cons]
      refine List.mem_append_right _ (List.mem_append_right _ (List.mem_append_left _ ?_))
      refine @step_finish_ok _ _ _ task { p with phase := .creating } ?_ rfl ?_ obj
      · unfold EventLoop.enter
        rw [hcheck, hhead]
        exact Function.update_self ..
      · rw [hregistry']
        exact hgone
    · have hmem : task ∈ rest := (List.mem_cons.mp htask).resolve_left hhead
      have hinv' := hinv.step (moves_step lazyLoadingEnabled freed .wake)
      rw [hwake] at hinv'
      have htask' : task ∈ s.waiters := hwaiters ▸ htask
      obtain ⟨continuation, hstored⟩ := ih hinv' hwaiters' hmem
        ((hothers task hhead).trans ((hsame task htask').trans hp))
        (by rw [hregistry']; exact hgone) (by rw [hregistry']; exact hexisting)
      refine ⟨release ++ .wake :: continuation, ?_⟩
      rw [runFrom_append, hfreed, runFrom_cons, hwake]
      exact List.mem_append_right _ (List.mem_append_right _ hstored)

theorem unregister_true (h : (s.registry.unregisterService rid).1 = .ok true) :
    (s.registry.unregisterService rid).2.registrations rid = none ∧
      (s.registry.unregisterService rid).2.existing rid = none := by
  unfold ServiceRegistry.unregisterService at h ⊢
  cases hregistration : s.registry.registrations rid with
  | none =>
    rw [hregistration] at h
    injection h with h
    cases h
  | some registration =>
    rw [hregistration] at h
    dsimp only at h ⊢
    cases hmap : s.registry.interfaceMap registration.serviceInterface with
    | none =>
      dsimp only
      unfold ServiceRegistry.existing
      exact ⟨Function.update_self .., by dsimp only; rw [Function.update_self]; rfl⟩
    | some ids =>
      rw [hmap] at h
      dsimp only at h ⊢
      by_cases hmem : rid ∈ ids
      · rw [if_pos hmem]
        unfold ServiceRegistry.existing
        exact ⟨Function.update_self .., by dsimp only; rw [Function.update_self]; rfl⟩
      · rw [if_neg hmem] at h
        cases h

theorem LockInv.unregistered_stores (h : LockInv s) (hidle : ¬ s.Idle rid)
    (hremoved : (s.registry.unregisterService rid).1 = .ok true) (obj : Obj) :
    ∃ continuation, .stored rid false ∈
      (runFrom lazyLoadingEnabled s (.unregisterService rid :: continuation)).2 := by
  obtain ⟨hgone, hexisting⟩ := unregister_true hremoved
  have hinv := h.step (moves_step lazyLoadingEnabled s (.unregisterService rid))
  have hwaits : ∃ task p, s.pending task = some p ∧ p.rid = rid := by
    unfold EventLoop.Idle at hidle
    push Not at hidle
    exact hidle
  obtain ⟨task, p, hp, rfl⟩ := hwaits
  have hstores : ∃ continuation, .stored p.rid false ∈ (runFrom lazyLoadingEnabled
      (s.step lazyLoadingEnabled (.unregisterService p.rid)).1 continuation).2 := by
    cases hphase : p.phase with
    | waiting =>
      exact hinv.stores rfl ((h.waiting_iff task).mpr ⟨p, hp, hphase⟩) hp hgone hexisting obj
    | creating =>
      refine ⟨[.finish task (.ok obj)], ?_⟩
      rw [runFrom_cons]
      exact List.mem_append_left _
        (step_finish_ok (s := (s.step _ (.unregisterService p.rid)).1) hp hphase hgone obj)
  obtain ⟨continuation, hstored⟩ := hstores
  exact ⟨continuation, List.mem_append_right _ hstored⟩

/-- Where registrations are taken out only while none of their resolutions waits, the law holds.
Where one is taken out while a resolution of it waits, the run can go on so that it fails. -/
theorem singletonLaw (lazyLoadingEnabled : Bool) (events : List (Event Obj)) :
    (UnregistersIdle lazyLoadingEnabled events → SingletonLaw lazyLoadingEnabled events) ∧
    ∀ rid, ¬ (runFrom lazyLoadingEnabled {} events).1.Idle rid →
      ((runFrom lazyLoadingEnabled {} events).1.registry.unregisterService rid).1 = .ok true →
      ∀ _ : Obj, ∃ continuation,
        ¬ SingletonLaw lazyLoadingEnabled (events ++ .unregisterService rid :: continuation) := by
  refine ⟨fun hidle => ⟨?_, ?_, ?_⟩, fun rid hwaits hremoved obj => ?_⟩
  · intro rid hfactory before period after hevents hkeeps obj obj' hobj hobj'
    obtain ⟨hbefore, hperiod⟩ := factory_parts hfactory hevents
    exact (SingletonInv.single hbefore hperiod hkeeps).1 obj obj' hobj hobj'
  · intro rid hfactory before period after hevents hkeeps
    obtain ⟨hbefore, hperiod⟩ := factory_parts hfactory hevents
    exact (SingletonInv.single hbefore hperiod hkeeps).2
  · exact liveInv_empty.run hidle
  · obtain ⟨continuation, hstored⟩ :=
      (lockInv_empty.run lazyLoadingEnabled events).unregistered_stores hwaits hremoved obj
    refine ⟨continuation, fun hlaw => ?_⟩
    have hmem := hlaw.stored_registered rid false
    rw [runFrom_append] at hmem
    exact nomatch hmem (List.mem_append_right _ hstored)

/-- `unregister_service` while the factory runs. -/
def unregisteredWhileCreating : List (Event ℕ) :=
  [.registerFactory ⟨1⟩ "ProtocolLogger" "LoggerFactory" .singleton .global,
    .begin 0 (.service "ProtocolLogger") 0 none, .unregisterService ⟨1⟩, .finish 0 (.ok 7)]

theorem unregisteredWhileCreating_not_singletonLaw :
    ¬ SingletonLaw true unregisteredWhileCreating := by
  intro h
  have hstored : .stored ⟨1⟩ false ∈ (runFrom true {} unregisteredWhileCreating).2 := by decide
  exact nomatch h.stored_registered ⟨1⟩ false hstored

end

end OmnibaseCore.Registry
