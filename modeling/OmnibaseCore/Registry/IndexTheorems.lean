import OmnibaseCore.Registry.Model

/-!
# The maps of the registry

Taking out a registration deletes the entry of its service name, whoever the entry leads to.

* `run_consistent_iff`: in a run the maps stay consistent exactly if every registration that is
  taken out is the only one with its name.
-/

namespace OmnibaseCore.Registry

variable {Obj : Type}

/-! ## Runs -/

/-- An operation, with the ids that it draws and what it gets from constructors and factories. -/
inductive Op (Obj : Type)
  | registerService (rid : UUID) (interfaceName implName : String)
      (lifecycle : EnumServiceLifecycle) (scope : EnumInjectionScope)
      (created : Except RegistryError Obj)
  | registerInstance (rid : UUID) (interfaceName instanceType : String) (obj : Obj)
      (scope : EnumInjectionScope)
  | registerFactory (rid : UUID) (interfaceName factoryType : String)
      (lifecycle : EnumServiceLifecycle) (scope : EnumInjectionScope)
  | resolve (call : ServiceRegistry.ResolveCall) (scope : Option EnumInjectionScope)
      (created : UUID → Except RegistryError Obj)
  | disposeInstances (rid : UUID) (scope : Option EnumInjectionScope)
  | unregisterService (rid : UUID)

/-- The id that an operation draws. -/
def Op.drawn : Op Obj → Option UUID
  | .registerService rid .. | .registerInstance rid .. | .registerFactory rid .. => some rid
  | _ => none

def succeeded {α : Type} (outcome : Except RegistryError α × ServiceRegistry Obj) :
    Except RegistryError (ServiceRegistry Obj) :=
  outcome.1.map fun _ => outcome.2

def Op.apply (lazyLoadingEnabled : Bool) (r : ServiceRegistry Obj) :
    Op Obj → Except RegistryError (ServiceRegistry Obj)
  | .registerService rid interfaceName implName lifecycle scope created =>
    succeeded
      (r.registerService lazyLoadingEnabled rid interfaceName implName lifecycle scope created)
  | .registerInstance rid interfaceName instanceType obj scope =>
    .ok (r.registerInstance rid interfaceName instanceType obj scope)
  | .registerFactory rid interfaceName factoryType lifecycle scope =>
    succeeded (r.registerFactory rid interfaceName factoryType lifecycle scope)
  | .resolve call scope created => succeeded (r.resolve call scope created)
  | .disposeInstances rid scope => .ok (r.disposeInstances rid scope).2
  | .unregisterService rid => succeeded (r.unregisterService rid)

/-- The registry after operations that all succeed. -/
def run (lazyLoadingEnabled : Bool) (ops : List (Op Obj)) :
    Except RegistryError (ServiceRegistry Obj) :=
  ops.foldlM (Op.apply lazyLoadingEnabled) {}

def DistinctIds (ops : List (Op Obj)) : Prop := (ops.filterMap Op.drawn).Nodup

/-! ## Consistency -/

def ServiceRegistry.listed (r : ServiceRegistry Obj) (interfaceName : String) : List UUID :=
  (r.interfaceMap interfaceName).getD []

/-- An id that is registered. -/
def ServiceRegistry.Live (r : ServiceRegistry Obj) (rid : UUID) : Prop :=
  (r.registrations rid).isSome = true

structure Consistent (r : ServiceRegistry Obj) : Prop where
  listed_count : ∀ rid registration, r.registrations rid = some registration →
    ∀ interfaceName, (r.listed interfaceName).count rid
      = if interfaceName = registration.serviceInterface then 1 else 0
  listed_live : ∀ interfaceName, ∀ rid ∈ r.listed interfaceName, r.Live rid
  name_live : ∀ name rid, r.nameMap name = some rid → r.Live rid
  factory_live : ∀ rid, (r.factories rid).isSome = true → r.Live rid
  instance_live : ∀ rid, (r.instances rid).isSome = true → r.Live rid
  name_resolvable : ∀ name, (r.nameMap name).isSome = true ↔
    ∃ rid registration, r.registrations rid = some registration ∧ registration.serviceName = name
  name_carried : ∀ name rid registration, r.nameMap name = some rid →
    r.registrations rid = some registration → registration.serviceName = name

def OwnName (r : ServiceRegistry Obj) (rid : UUID) : Prop :=
  ∀ registration, r.registrations rid = some registration →
    ∀ other registration', other ≠ rid → r.registrations other = some registration' →
      registration'.serviceName ≠ registration.serviceName

section
variable {r : ServiceRegistry Obj} {rid : UUID}

theorem consistent_empty : Consistent ({} : ServiceRegistry Obj) where
  listed_count := fun _ _ h => nomatch h
  listed_live := fun _ _ h => nomatch h
  name_live := fun _ _ h => nomatch h
  factory_live := fun _ h => nomatch h
  instance_live := fun _ h => nomatch h
  name_resolvable := fun _ => ⟨nofun, fun ⟨_, _, h, _⟩ => nomatch h⟩
  name_carried := fun _ _ _ h => nomatch h

variable {registration : ModelServiceRegistration}

theorem ServiceRegistry.Live.of_some (h : r.registrations rid = some registration) :
    r.Live rid := by
  unfold ServiceRegistry.Live
  rw [h]
  rfl

/-! ### Registration -/

theorem listed_addRegistration (r : ServiceRegistry Obj) (rid : UUID)
    (registration : ModelServiceRegistration) (interfaceName : String) :
    (r.addRegistration rid registration).listed interfaceName
      = r.listed interfaceName ++
        if interfaceName = registration.serviceInterface then [rid] else [] := by
  unfold ServiceRegistry.listed ServiceRegistry.addRegistration
  dsimp only
  by_cases h : interfaceName = registration.serviceInterface
  · rw [if_pos h, h, Function.update_self, Option.getD_some]
  · rw [if_neg h, Function.update_of_ne h, List.append_nil]

variable {other : UUID}

theorem live_addRegistration_iff :
    (r.addRegistration rid registration).Live other ↔ other = rid ∨ r.Live other := by
  unfold ServiceRegistry.Live ServiceRegistry.addRegistration
  by_cases h : other = rid
  · simp [h]
  · simp [h]

/-- A new registration goes to the end of its interface's list and takes over its name. -/
theorem Consistent.addRegistration (h : Consistent r) (hnew : ¬ r.Live rid)
    (registration : ModelServiceRegistration) : Consistent (r.addRegistration rid registration) where
  listed_count other registration' hother interfaceName := by
    rw [listed_addRegistration, List.count_append]
    rcases update_eq_some hother with ⟨hid, hother⟩ | ⟨hid, hsame⟩
    · have hzero : (if interfaceName = registration.serviceInterface then [rid] else []).count other
          = 0 := by
        split_ifs <;> simp [Ne.symm hid]
      rw [hzero, Nat.add_zero]
      exact h.listed_count other registration' hother interfaceName
    · obtain rfl := Option.some.inj hsame
      have hzero : (r.listed interfaceName).count rid = 0 :=
        List.count_eq_zero.mpr fun hmem => hnew (h.listed_live interfaceName rid hmem)
      rw [hid, hzero]
      split_ifs <;> simp
  listed_live interfaceName other hother := by
    rw [listed_addRegistration, List.mem_append] at hother
    rw [live_addRegistration_iff]
    rcases hother with hother | hother
    · exact Or.inr (h.listed_live interfaceName other hother)
    · split_ifs at hother
      · exact Or.inl (List.mem_singleton.mp hother)
      · cases hother
  name_live name other hother := by
    rw [live_addRegistration_iff]
    rcases update_eq_some hother with ⟨-, hother⟩ | ⟨-, hsame⟩
    · exact Or.inr (h.name_live name other hother)
    · exact Or.inl (Option.some.inj hsame).symm
  factory_live other hother := live_addRegistration_iff.mpr (Or.inr (h.factory_live other hother))
  instance_live other hother := live_addRegistration_iff.mpr (Or.inr (h.instance_live other hother))
  name_resolvable name := by
    show (Function.update r.nameMap registration.serviceName (some rid) name).isSome = true ↔
      ∃ other registration',
        Function.update r.registrations rid (some registration) other = some registration' ∧
          registration'.serviceName = name
    by_cases hname : name = registration.serviceName
    · rw [hname, Function.update_self]
      refine iff_of_true rfl ⟨rid, registration, ?_, rfl⟩
      rw [Function.update_self]
    · rw [Function.update_of_ne hname, h.name_resolvable]
      refine exists_congr fun other => exists_congr fun registration' => ?_
      by_cases hid : other = rid
      · rw [hid, Function.update_self]
        refine iff_of_false (fun hlive => hnew (.of_some hlive.1)) ?_
        intro ⟨hsame, hname'⟩
        rw [← Option.some.inj hsame] at hname'
        exact hname hname'.symm
      · rw [Function.update_of_ne hid]
  name_carried name other registration' hlookup hother := by
    rcases update_eq_some hlookup with ⟨-, hlookup⟩ | ⟨hname, hlookup⟩ <;>
      rcases update_eq_some hother with ⟨hid, hother⟩ | ⟨hid, hother⟩
    · exact h.name_carried name other registration' hlookup hother
    · exact absurd (h.name_live name rid (hid ▸ hlookup)) hnew
    · exact absurd (Option.some.inj hlookup).symm hid
    · rw [← Option.some.inj hother, hname]

variable {r' : ServiceRegistry Obj}

theorem Consistent.of_same (h : Consistent r) (hregistrations : r'.registrations = r.registrations)
    (hinterfaces : r'.interfaceMap = r.interfaceMap) (hnames : r'.nameMap = r.nameMap)
    (hfactories : ∀ rid, (r'.factories rid).isSome = true → r.Live rid)
    (hinstances : ∀ rid, (r'.instances rid).isSome = true → r.Live rid) : Consistent r' := by
  obtain ⟨registrations, instances, interfaceMap, nameMap, factories⟩ := r'
  obtain rfl : registrations = r.registrations := hregistrations
  obtain rfl : interfaceMap = r.interfaceMap := hinterfaces
  obtain rfl : nameMap = r.nameMap := hnames
  exact ⟨h.listed_count, h.listed_live, h.name_live, hfactories, hinstances, h.name_resolvable,
    h.name_carried⟩

theorem Consistent.storeInstance (h : Consistent r) (hlive : r.Live rid) (obj : Obj)
    (lifecycle : EnumServiceLifecycle) (scope : EnumInjectionScope) :
    Consistent (r.storeInstance rid obj lifecycle scope) := by
  refine h.of_same rfl rfl rfl h.factory_live fun other hother => ?_
  rcases isSome_update hother with ⟨-, hother⟩ | ⟨hid, -⟩
  · exact h.instance_live other hother
  · exact hid ▸ hlive

theorem Consistent.disposeInstances (h : Consistent r) (rid : UUID)
    (scope : Option EnumInjectionScope) : Consistent (r.disposeInstances rid scope).2 := by
  unfold ServiceRegistry.disposeInstances
  cases hinstances : r.instances rid with
  | none => exact h
  | some instances =>
    refine h.of_same rfl rfl rfl h.factory_live fun other hother => ?_
    rcases isSome_update hother with ⟨-, hother⟩ | ⟨hid, -⟩
    · exact h.instance_live other hother
    · exact h.instance_live other (by rw [hid, hinstances]; rfl)

/-! ### Removal -/

def ServiceRegistry.without (r : ServiceRegistry Obj) (rid : UUID)
    (registration : ModelServiceRegistration) : ServiceRegistry Obj where
  registrations := Function.update r.registrations rid none
  instances := Function.update r.instances rid none
  interfaceMap := Function.update r.interfaceMap registration.serviceInterface
    (if (r.listed registration.serviceInterface).erase rid = [] then none
      else some ((r.listed registration.serviceInterface).erase rid))
  nameMap := Function.update r.nameMap registration.serviceName none
  factories := Function.update r.factories rid none

theorem Consistent.unregisterService_eq (h : Consistent r)
    (hregistration : r.registrations rid = some registration) :
    r.unregisterService rid = (.ok true, r.without rid registration) := by
  have hcount := h.listed_count rid registration hregistration registration.serviceInterface
  rw [if_pos rfl] at hcount
  have hmem : rid ∈ r.listed registration.serviceInterface :=
    List.count_pos_iff.mp (by omega)
  unfold ServiceRegistry.unregisterService ServiceRegistry.without
  rw [hregistration]
  unfold ServiceRegistry.listed at hmem ⊢
  cases hids : r.interfaceMap registration.serviceInterface with
  | none =>
    rw [hids] at hmem
    cases hmem
  | some ids =>
    rw [hids, Option.getD_some] at hmem
    dsimp only
    rw [hids]
    dsimp only
    rw [if_pos hmem]
    rfl

theorem listed_without (r : ServiceRegistry Obj) (rid : UUID)
    (registration : ModelServiceRegistration) (interfaceName : String) :
    (r.without rid registration).listed interfaceName
      = if interfaceName = registration.serviceInterface then (r.listed interfaceName).erase rid
        else r.listed interfaceName := by
  show (Function.update r.interfaceMap registration.serviceInterface _ interfaceName).getD [] = _
  by_cases h : interfaceName = registration.serviceInterface
  · rw [if_pos h, h, Function.update_self]
    split_ifs with hempty
    · rw [hempty, Option.getD_none]
    · rw [Option.getD_some]
  · rw [if_neg h, Function.update_of_ne h]
    rfl

theorem live_without_iff :
    (r.without rid registration).Live other ↔ other ≠ rid ∧ r.Live other := by
  unfold ServiceRegistry.Live ServiceRegistry.without
  by_cases h : other = rid
  · simp [h]
  · simp [h]

theorem registrations_without {registration registration' : ModelServiceRegistration} :
    (r.without rid registration).registrations other = some registration' ↔
      other ≠ rid ∧ r.registrations other = some registration' := by
  unfold ServiceRegistry.without
  by_cases h : other = rid
  · simp [h]
  · simp [h]

/-- If no other registration has its name, a registration can be taken out. -/
theorem Consistent.without (h : Consistent r)
    (hregistration : r.registrations rid = some registration) (hown : OwnName r rid) :
    Consistent (r.without rid registration) where
  listed_count other registration' hother interfaceName := by
    rw [registrations_without] at hother
    have hcount := h.listed_count other registration' hother.2 interfaceName
    rw [listed_without]
    by_cases hinterface : interfaceName = registration.serviceInterface
    · rw [if_pos hinterface, List.count_erase_of_ne hother.1]
      exact hcount
    · rw [if_neg hinterface]
      exact hcount
  listed_live interfaceName other hother := by
    rw [listed_without] at hother
    rw [live_without_iff]
    have hcount := h.listed_count rid registration hregistration interfaceName
    split_ifs at hother hcount with hinterface
    · refine ⟨?_, h.listed_live interfaceName other (List.mem_of_mem_erase hother)⟩
      -- the id has been listed once, so that none is left
      intro hid
      rw [hid, ← List.count_pos_iff, List.count_erase_self] at hother
      omega
    · refine ⟨?_, h.listed_live interfaceName other hother⟩
      intro hid
      rw [hid, ← List.count_pos_iff] at hother
      omega
  name_live name other hother := by
    rw [live_without_iff]
    rcases update_eq_some hother with ⟨hname, hother⟩ | ⟨-, hnone⟩
    · refine ⟨?_, h.name_live name other hother⟩
      intro hid
      rw [hid] at hother
      exact hname (h.name_carried name rid registration hother hregistration).symm
    · exact nomatch hnone
  factory_live other hother := by
    rw [live_without_iff]
    rcases isSome_update hother with ⟨hid, hother⟩ | ⟨-, hnone⟩
    · exact ⟨hid, h.factory_live other hother⟩
    · exact nomatch hnone
  instance_live other hother := by
    rw [live_without_iff]
    rcases isSome_update hother with ⟨hid, hother⟩ | ⟨-, hnone⟩
    · exact ⟨hid, h.instance_live other hother⟩
    · exact nomatch hnone
  name_resolvable name := by
    show (Function.update r.nameMap registration.serviceName none name).isSome = true ↔ _
    simp only [registrations_without]
    by_cases hname : name = registration.serviceName
    · rw [hname, Function.update_self]
      refine iff_of_false nofun ?_
      intro ⟨other, registration', ⟨hid, hother⟩, hname'⟩
      exact hown registration hregistration other registration' hid hother hname'
    · rw [Function.update_of_ne hname, h.name_resolvable]
      refine exists_congr fun other => exists_congr fun registration' => ?_
      have hid : r.registrations other = some registration' → registration'.serviceName = name →
          other ≠ rid := by
        intro hother hname' hid
        rw [hid, hregistration] at hother
        rw [← Option.some.inj hother] at hname'
        exact hname hname'.symm
      tauto
  name_carried name other registration' hlookup hother := by
    rw [registrations_without] at hother
    rcases update_eq_some hlookup with ⟨-, hlookup⟩ | ⟨-, hnone⟩
    · exact h.name_carried name other registration' hlookup hother.2
    · exact nomatch hnone

theorem not_consistent_without (hregistration : r.registrations rid = some registration)
    (hown : ¬ OwnName r rid) : ¬ Consistent (r.without rid registration) := by
  intro h
  refine hown fun registration₁ hregistration₁ other registration' hid hother hname => ?_
  obtain rfl := Option.some.inj (hregistration.symm.trans hregistration₁)
  have hresolvable := (h.name_resolvable registration.serviceName).mpr
    ⟨other, registration', registrations_without.mpr ⟨hid, hother⟩, hname⟩
  have hnone : (r.without rid registration).nameMap registration.serviceName = none :=
    Function.update_self ..
  rw [hnone] at hresolvable
  cases hresolvable

/-! ## Operations -/

theorem succeeded_eq_ok_iff {α : Type} {outcome : Except RegistryError α × ServiceRegistry Obj} :
    succeeded outcome = .ok r' ↔ (∃ a, outcome.1 = .ok a) ∧ outcome.2 = r' := by
  unfold succeeded
  cases outcome.1 with
  | error e => exact ⟨nofun, fun ⟨⟨_, h⟩, _⟩ => nomatch h⟩
  | ok a => exact ⟨fun h => ⟨⟨a, rfl⟩, Except.ok.inj h⟩, fun h => congrArg Except.ok h.2⟩

theorem Consistent.resolveEach (scope : Option EnumInjectionScope)
    (created : UUID → Except RegistryError Obj) {rids : List UUID} (h : Consistent r) :
    Consistent (ServiceRegistry.resolveEach scope created rids r).2 ∧
      (ServiceRegistry.resolveEach scope created rids r).2.registrations = r.registrations := by
  induction rids generalizing r with
  | nil => exact ⟨h, rfl⟩
  | cons rid rest ih =>
    rw [ServiceRegistry.resolveEach]
    cases hregistration : r.registrations rid with
    | none => exact ⟨h, rfl⟩
    | some registration =>
      have hone : Consistent (r.resolveByLifecycle rid registration
            (scope.getD registration.scope) (created rid)).2 ∧
          (r.resolveByLifecycle rid registration (scope.getD registration.scope)
            (created rid)).2.registrations = r.registrations := by
        have hlive : r.Live rid := .of_some hregistration
        unfold ServiceRegistry.resolveByLifecycle
        cases r.beginResolve rid registration.lifecycle with
        | returned obj => exact ⟨h, rfl⟩
        | raised e => exact ⟨h, rfl⟩
        | acquire | create =>
          cases created rid with
          | error e => exact ⟨h, rfl⟩
          | ok obj => exact ⟨h.storeInstance hlive obj _ _, rfl⟩
      dsimp only
      revert hone
      cases r.resolveByLifecycle rid registration (scope.getD registration.scope) (created rid) with
      | mk result r₁ =>
        intro hone
        cases result with
        | error e => exact hone
        | ok obj =>
          have hrest := ih hone.1
          rw [hone.2] at hrest
          dsimp only
          revert hrest
          cases ServiceRegistry.resolveEach scope created rest r₁ with
          | mk result r₂ =>
            intro hrest
            cases result with
            | error e => exact hrest
            | ok objs => exact hrest

theorem Consistent.resolve (h : Consistent r) (call : ServiceRegistry.ResolveCall)
    (scope : Option EnumInjectionScope) (created : UUID → Except RegistryError Obj) :
    Consistent (r.resolve call scope created).2 ∧
      (r.resolve call scope created).2.registrations = r.registrations := by
  unfold ServiceRegistry.resolve
  cases r.targets call with
  | error e => exact ⟨h, rfl⟩
  | ok rids => exact h.resolveEach scope created

/-- What one operation that succeeds does to a consistent registry: it stays consistent, unless a
registration is taken out that shares its name, and an id is registered only if it was before or
is drawn. -/
theorem Consistent.apply {lazyLoadingEnabled : Bool} {op : Op Obj} (h : Consistent r)
    (hdrawn : ∀ rid, op.drawn = some rid → ¬ r.Live rid)
    (hown : ∀ rid, op = .unregisterService rid → OwnName r rid)
    (happly : op.apply lazyLoadingEnabled r = .ok r') :
    Consistent r' ∧ ∀ rid, r'.Live rid → r.Live rid ∨ op.drawn = some rid := by
  have hlive : ∀ {rid registration other},
      (r.addRegistration rid registration).Live other → r.Live other ∨ some rid = some other :=
    fun hother => (live_addRegistration_iff.mp hother).elim
      (fun hid => Or.inr (congrArg some hid.symm)) Or.inl
  cases op with
  | registerService rid interfaceName implName lifecycle scope created =>
    obtain ⟨⟨id, hresult⟩, rfl⟩ := succeeded_eq_ok_iff.mp happly
    have hadd := h.addRegistration (hdrawn rid rfl)
      { serviceName := implName, serviceInterface := interfaceName, lifecycle, scope }
    unfold ServiceRegistry.registerService at hresult ⊢
    dsimp only at hresult ⊢
    split_ifs at hresult ⊢ with heager
    · cases created with
      | error e => cases hresult
      | ok obj =>
        exact ⟨hadd.storeInstance (live_addRegistration_iff.mpr (Or.inl rfl)) obj _ _,
          fun other hother => hlive hother⟩
    · exact ⟨hadd, fun other hother => hlive hother⟩
  | registerInstance rid interfaceName instanceType obj scope =>
    obtain rfl := Except.ok.inj happly
    refine ⟨(h.addRegistration (hdrawn rid rfl) _).storeInstance
      (live_addRegistration_iff.mpr (Or.inl rfl)) obj _ _, fun other hother => hlive hother⟩
  | registerFactory rid interfaceName factoryType lifecycle scope =>
    obtain ⟨⟨id, hresult⟩, rfl⟩ := succeeded_eq_ok_iff.mp happly
    unfold ServiceRegistry.registerFactory at hresult ⊢
    split_ifs at hresult ⊢ with hsupported
    · have hadd := h.addRegistration (hdrawn rid rfl)
        { serviceName := factoryType, serviceInterface := interfaceName, lifecycle, scope }
      refine ⟨hadd.of_same rfl rfl rfl (fun other hother => ?_) hadd.instance_live,
        fun other hother => hlive hother⟩
      rw [live_addRegistration_iff]
      rcases isSome_update hother with ⟨-, hother⟩ | ⟨hid, -⟩
      · exact Or.inr (h.factory_live other hother)
      · exact Or.inl hid
  | resolve call scope created =>
    obtain ⟨-, rfl⟩ := succeeded_eq_ok_iff.mp happly
    have hresolve := h.resolve call scope created
    refine ⟨hresolve.1, fun other hother => Or.inl ?_⟩
    unfold ServiceRegistry.Live at hother ⊢
    rw [← hresolve.2]
    exact hother
  | disposeInstances rid scope =>
    obtain rfl := Except.ok.inj happly
    refine ⟨h.disposeInstances rid scope, fun other hother => Or.inl ?_⟩
    unfold ServiceRegistry.disposeInstances at hother
    cases hinstances : r.instances rid with
    | none =>
      rw [hinstances] at hother
      exact hother
    | some instances =>
      rw [hinstances] at hother
      exact hother
  | unregisterService rid =>
    obtain ⟨-, rfl⟩ := succeeded_eq_ok_iff.mp happly
    cases hregistration : r.registrations rid with
    | none =>
      have hsame : (r.unregisterService rid).2 = r := by
        unfold ServiceRegistry.unregisterService
        rw [hregistration]
      rw [hsame]
      exact ⟨h, fun other hother => Or.inl hother⟩
    | some registration =>
      rw [h.unregisterService_eq hregistration]
      refine ⟨h.without hregistration (hown rid rfl), fun other hother => Or.inl ?_⟩
      exact (live_without_iff.mp hother).2

end

/-! ## Whole runs -/

section
variable {lazyLoadingEnabled : Bool} {ops : List (Op Obj)}

theorem run_append_singleton {op : Op Obj} {r' : ServiceRegistry Obj} :
    run lazyLoadingEnabled (ops ++ [op]) = .ok r' ↔
      ∃ r, run lazyLoadingEnabled ops = .ok r ∧ op.apply lazyLoadingEnabled r = .ok r' := by
  unfold run
  rw [List.foldlM_append, bind_eq_ok_iff]
  simp only [List.foldlM_cons, List.foldlM_nil, bind_pure]

def TakesOutOwnNames (lazyLoadingEnabled : Bool) (ops : List (Op Obj)) : Prop :=
  ∀ before rid after r, ops = before ++ .unregisterService rid :: after →
    run lazyLoadingEnabled before = .ok r → OwnName r rid

def ConsistentThroughout (lazyLoadingEnabled : Bool) (ops : List (Op Obj)) : Prop :=
  ∀ before after r, ops = before ++ after → run lazyLoadingEnabled before = .ok r → Consistent r

/-- The indices are consistent after a run whose ids are distinct. -/
theorem consistent_run {r : ServiceRegistry Obj} (hids : DistinctIds ops)
    (hown : TakesOutOwnNames lazyLoadingEnabled ops) (hrun : run lazyLoadingEnabled ops = .ok r) :
    Consistent r ∧ ∀ rid, r.Live rid → rid ∈ ops.filterMap Op.drawn := by
  induction ops using List.reverseRecOn generalizing r with
  | nil =>
    obtain rfl := Except.ok.inj hrun
    exact ⟨consistent_empty, fun rid hlive => nomatch hlive⟩
  | append_singleton ops op ih =>
    obtain ⟨r₀, hrun₀, happly⟩ := run_append_singleton.mp hrun
    unfold DistinctIds at hids
    rw [List.filterMap_append, List.nodup_append] at hids
    have hown₀ : TakesOutOwnNames lazyLoadingEnabled ops := by
      intro before rid after r₁ hops hbefore
      refine hown before rid (after ++ [op]) r₁ ?_ hbefore
      rw [hops, List.append_assoc, List.cons_append]
    obtain ⟨hconsistent, hlive⟩ := ih hids.1 hown₀ hrun₀
    have hdrawn : ∀ rid, op.drawn = some rid → ¬ r₀.Live rid := by
      intro rid hop hrid
      refine hids.2.2 rid (hlive rid hrid) rid ?_ rfl
      rw [List.filterMap_cons_some hop]
      exact List.mem_cons_self
    obtain ⟨hnext, hstep⟩ := hconsistent.apply hdrawn
      (fun rid hop => hown ops rid [] r₀ (by rw [hop]) hrun₀) happly
    refine ⟨hnext, fun rid hrid => ?_⟩
    rw [List.filterMap_append, List.mem_append]
    rcases hstep rid hrid with hrid | hop
    · exact Or.inl (hlive rid hrid)
    · right
      rw [List.filterMap_cons_some hop]
      exact List.mem_cons_self

/-- The maps of the registry stay consistent exactly in the runs in which every registration that
is taken out is the only one with its service name. -/
theorem run_consistent_iff {r : ServiceRegistry Obj} (hids : DistinctIds ops)
    (hrun : run lazyLoadingEnabled ops = .ok r) :
    ConsistentThroughout lazyLoadingEnabled ops ↔ TakesOutOwnNames lazyLoadingEnabled ops := by
  have hprefix : ∀ before after : List (Op Obj), ops = before ++ after →
      ∃ r₀, run lazyLoadingEnabled before = .ok r₀ := by
    intro before after hops
    rw [hops, run, List.foldlM_append] at hrun
    obtain ⟨r₀, hr₀, -⟩ := bind_eq_ok hrun
    exact ⟨r₀, hr₀⟩
  constructor
  · intro hconsistent before rid after r₀ hops hbefore registration hregistration
    by_contra hshared
    have hnot : ¬ OwnName r₀ rid := fun hown => hshared (hown registration hregistration)
    have hbeforeConsistent := hconsistent before _ r₀ hops hbefore
    refine not_consistent_without hregistration hnot ?_
    refine hconsistent (before ++ [.unregisterService rid]) after _ (by rw [hops]; simp) ?_
    refine run_append_singleton.mpr ⟨r₀, hbefore, succeeded_eq_ok_iff.mpr ?_⟩
    rw [hbeforeConsistent.unregisterService_eq hregistration]
    exact ⟨⟨true, rfl⟩, rfl⟩
  · intro hown before after r₀ hops hbefore
    have hids₀ : DistinctIds before := by
      unfold DistinctIds at hids
      rw [hops, List.filterMap_append, List.nodup_append] at hids
      exact hids.1
    refine (consistent_run hids₀ ?_ hbefore).1
    intro first rid rest r₁ hbefore' hfirst
    refine hown first rid (rest ++ after) r₁ ?_ hfirst
    rw [hops, hbefore', List.append_assoc, List.cons_append]

end

def twoLoggers : List (Op ℕ) :=
  [.registerInstance ⟨1⟩ "ProtocolLogger" "ConsoleLogger" 1 .global,
   .registerInstance ⟨2⟩ "ProtocolAuditLogger" "ConsoleLogger" 2 .global,
   .unregisterService ⟨1⟩]

theorem run_consistent_iff_twoLoggers :
    ∃ r, DistinctIds twoLoggers ∧ run true twoLoggers = .ok r ∧
      (ConsistentThroughout true twoLoggers ↔ TakesOutOwnNames true twoLoggers) := by
  have hids : DistinctIds twoLoggers := by
    unfold DistinctIds
    decide
  exact ⟨_, hids, rfl, run_consistent_iff hids rfl⟩

/-- The logger that is left cannot be resolved by its name. -/
theorem twoLoggers_not_consistentThroughout :
    DistinctIds twoLoggers ∧ ¬ ConsistentThroughout true twoLoggers := by
  constructor
  · unfold DistinctIds
    decide
  · intro h
    have hlast := h twoLoggers [] _ (List.append_nil _).symm rfl
    have hresolvable := (hlast.name_resolvable "ConsoleLogger").mpr ⟨⟨2⟩, _, rfl, rfl⟩
    cases hresolvable

end OmnibaseCore.Registry
