import OmnibaseCore.Dispatch.NodeDispatch
import OmnibaseCore.Python.FirstOf

/-!
# What a frozen table selects

Over every history of calls, of which some may fail.

* `nodeDispatch_law`: a call that fails changes nothing; a frozen table has a dispatcher for every
  route, and selects by the routes and dispatchers of the calls that have returned, in whatever
  order the dispatchers came.
-/

namespace OmnibaseCore.Dispatch

variable {Obj : Type}

/-! ## Histories -/

/-- A call that may change the table. -/
inductive NodeDispatchCall (Obj : Type)
  | registerRoute (route : Option ModelDispatchRoute)
  | registerDispatcher (dispatcher : DispatcherObject) (entry : NodeDispatchEntry Obj)
  | freeze
  | setDlqTopicDeriver (deriver : Option DlqTopicDeriver)

namespace NodeDispatchCall

/-- The outcome of a call, and the table behind it. -/
def run (state : NodeDispatchState Obj) :
    NodeDispatchCall Obj → Except PyException Unit × NodeDispatchState Obj
  | registerRoute route => state.registerRoute route
  | registerDispatcher dispatcher entry => state.registerDispatcher dispatcher entry
  | freeze => state.freeze
  | setDlqTopicDeriver deriver => (.ok (), state.setDlqTopicDeriver deriver)

def route : NodeDispatchCall Obj → Option ModelDispatchRoute
  | registerRoute route => route
  | _ => none

def entry : NodeDispatchCall Obj → Option (NodeDispatchEntry Obj)
  | registerDispatcher _ entry => some entry
  | _ => none

end NodeDispatchCall

def tableAfter (state : NodeDispatchState Obj) (history : List (NodeDispatchCall Obj)) :
    NodeDispatchState Obj :=
  history.foldl (fun state call => (call.run state).2) state

def returned (state : NodeDispatchState Obj) :
    List (NodeDispatchCall Obj) → List (NodeDispatchCall Obj)
  | [] => []
  | call :: rest =>
    match call.run state with
    | (.ok (), state') => call :: returned state' rest
    | (.error _, state') => returned state' rest

def registeredRoutes (history : List (NodeDispatchCall Obj)) : List ModelDispatchRoute :=
  (returned {} history).filterMap NodeDispatchCall.route

def registeredDispatchers (history : List (NodeDispatchCall Obj)) : List (NodeDispatchEntry Obj) :=
  (returned {} history).filterMap NodeDispatchCall.entry

/-! ## What should be selected -/

def NodeDispatchEntry.admits (entry : NodeDispatchEntry Obj) (messageType : String)
    (payload : Option Obj) : Bool :=
  (entry.messageTypes.all fun types => messageType ∈ types) && payload.all entry.payloadMatches

def qualifies (i : TopicInterpreter) (entries : List (NodeDispatchEntry Obj)) (topic : String)
    (category : EnumMessageCategory) (messageType : String) (payload : Option Obj)
    (route : ModelDispatchRoute) : Bool :=
  route.enabled && route.matchesTopic i topic && route.messageCategory = category &&
    (route.messageType.all fun required => required = messageType) &&
    entries.any fun entry => entry.dispatcherId = route.handlerId && entry.admits messageType payload

/-! ## What a call does -/

/-- A call that returns has done one of these; a call that raises has done nothing. -/
inductive NodeDispatchStep (state : NodeDispatchState Obj) :
    NodeDispatchCall Obj → Except PyException Unit → NodeDispatchState Obj → Prop
  | raised (call : NodeDispatchCall Obj) (e : PyException) :
    NodeDispatchStep state call (.error e) state
  | route (route : ModelDispatchRoute) (hopen : state.frozen = false)
    (hcategory : ∀ entry, state.entry route.handlerId = some entry →
      route.messageCategory = entry.category) :
    NodeDispatchStep state (.registerRoute (some route)) (.ok ())
      { state with routes := state.routes ++ [route] }
  | dispatcher (dispatcher : DispatcherObject) (entry : NodeDispatchEntry Obj)
    (hopen : state.frozen = false)
    (hnew : entry.dispatcherId ∉ state.dispatchers.map NodeDispatchEntry.dispatcherId)
    (hcategory : ∀ route ∈ state.routes, route.handlerId = entry.dispatcherId →
      route.messageCategory = entry.category) :
    NodeDispatchStep state (.registerDispatcher dispatcher entry) (.ok ())
      { state with dispatchers := state.dispatchers ++ [entry] }
  | refreeze (hfrozen : state.frozen = true) : NodeDispatchStep state .freeze (.ok ()) state
  | freeze (hnamed : ∀ route ∈ state.routes, ∃ entry, state.entry route.handlerId = some entry) :
    NodeDispatchStep state .freeze (.ok ()) { state with frozen := true }
  | deriver (deriver : Option DlqTopicDeriver) :
    NodeDispatchStep state (.setDlqTopicDeriver deriver) (.ok ())
      { state with dlqTopicDeriver := deriver }

variable {entry : NodeDispatchEntry Obj}

theorem validateRouteDispatcherCategory_eq_ok_iff {route : ModelDispatchRoute} :
    validateRouteDispatcherCategory route entry = .ok () ↔
      route.messageCategory = entry.category := by
  unfold validateRouteDispatcherCategory
  split_ifs with h
  · exact iff_of_true rfl h
  · exact iff_of_false nofun h

/-- Every call is a step of the dispatcher. -/
theorem nodeDispatchStep_run (state : NodeDispatchState Obj) (call : NodeDispatchCall Obj) :
    NodeDispatchStep state call (call.run state).1 (call.run state).2 := by
  cases call with
  | registerRoute route =>
    show NodeDispatchStep state _ (state.registerRoute route).1 (state.registerRoute route).2
    cases route with
    | none => exact .raised _ _
    | some route =>
      unfold NodeDispatchState.registerRoute
      dsimp only
      split_ifs with hfrozen hknown
      · exact .raised _ _
      · exact .raised _ _
      · split
        · exact .raised _ _
        · rename_i hchecked
          refine .route route (Bool.not_eq_true _ ▸ hfrozen) fun entry hentry => ?_
          rw [hentry] at hchecked
          exact validateRouteDispatcherCategory_eq_ok_iff.mp hchecked
  | registerDispatcher dispatcher entry =>
    show NodeDispatchStep state _ (state.registerDispatcher dispatcher entry).1
      (state.registerDispatcher dispatcher entry).2
    unfold NodeDispatchState.registerDispatcher
    cases dispatcher with
    | other typeName =>
      dsimp only
      split_ifs
      · exact .raised _ _
      · exact .raised _ _
    | callable =>
      dsimp only
      split_ifs with hblank hfrozen hknown
      · exact .raised _ _
      · exact .raised _ _
      · exact .raised _ _
      · split
        · exact .raised _ _
        · rename_i hchecked
          refine .dispatcher _ entry (Bool.not_eq_true _ ▸ hfrozen) hknown
            fun route hroute hnamed => ?_
          have hvalid := forM_eq_ok_iff.mp hchecked route hroute
          rw [if_pos hnamed] at hvalid
          exact validateRouteDispatcherCategory_eq_ok_iff.mp hvalid
  | freeze =>
    show NodeDispatchStep state _ state.freeze.1 state.freeze.2
    unfold NodeDispatchState.freeze
    split_ifs with hfrozen
    · exact .refreeze hfrozen
    · dsimp only
      split
      · exact .raised _ _
      · rename_i hchecked
        refine .freeze fun route hroute => ?_
        have hvalid := forM_eq_ok_iff.mp hchecked route hroute
        cases hentry : state.entry route.handlerId with
        | none =>
          rw [hentry] at hvalid
          exact nomatch hvalid
        | some entry => exact ⟨entry, rfl⟩
  | setDlqTopicDeriver deriver => exact .deriver deriver

variable {call : NodeDispatchCall Obj}

variable {state : NodeDispatchState Obj}

theorem run_of_error {e : PyException}
    (h : (call.run state).1 = .error e) : (call.run state).2 = state := by
  have hstep := nodeDispatchStep_run state call
  rw [h] at hstep
  generalize (call.run state).2 = state' at hstep
  cases hstep
  rfl

/-! ## The invariant -/

/-- Routes and dispatchers fit together, and behind `freeze` no dispatcher is missing. -/
structure Consistent (state : NodeDispatchState Obj) : Prop where
  distinct : (state.dispatchers.map NodeDispatchEntry.dispatcherId).Nodup
  category : ∀ route ∈ state.routes, ∀ entry ∈ state.dispatchers,
    entry.dispatcherId = route.handlerId → route.messageCategory = entry.category
  named : state.frozen = true → ∀ route ∈ state.routes,
    ∃ entry ∈ state.dispatchers, entry.dispatcherId = route.handlerId

theorem consistent_empty : Consistent ({} : NodeDispatchState Obj) where
  distinct := List.nodup_nil
  category _ h := nomatch h
  named h := nomatch h

theorem mem_of_entry {id : String} (h : state.entry id = some entry) : entry ∈ state.dispatchers ∧ entry.dispatcherId = id :=
  ⟨List.mem_of_find?_eq_some h, by simpa using List.find?_some h⟩

theorem Consistent.entry_eq (h : Consistent state)
    (hentry : entry ∈ state.dispatchers) : state.entry entry.dispatcherId = some entry := by
  cases hfind : state.entry entry.dispatcherId with
  | none =>
    have hnot := List.find?_eq_none.mp hfind entry hentry
    simp at hnot
  | some found =>
    obtain ⟨hfound, hid⟩ := mem_of_entry hfind
    rw [List.inj_on_of_nodup_map h.distinct hfound hentry hid]

/-- A step keeps the registrations consistent. -/
theorem Consistent.step {state state' : NodeDispatchState Obj} {outcome : Except PyException Unit}
    (h : Consistent state) (hstep : NodeDispatchStep state call outcome state') :
    Consistent state' := by
  cases hstep with
  | raised call e => exact h
  | route route hopen hcategory =>
    refine ⟨h.distinct, fun route' hroute entry hentry hnamed => ?_, fun hfrozen => ?_⟩
    · rcases List.mem_append.mp hroute with hroute | hroute
      · exact h.category route' hroute entry hentry hnamed
      · obtain rfl := List.mem_singleton.mp hroute
        apply hcategory entry
        rw [← hnamed]
        exact h.entry_eq hentry
    · rw [show state.frozen = true from hfrozen] at hopen
      exact nomatch hopen
  | dispatcher dispatcher entry hopen hnew hcategory =>
    refine ⟨?_, fun route hroute entry' hentry hnamed => ?_, fun hfrozen => ?_⟩
    · rw [List.map_append, List.map_singleton]
      exact List.nodup_append.mpr ⟨h.distinct, List.nodup_singleton _, fun a ha b hb hab =>
        hnew (List.mem_singleton.mp hb ▸ hab ▸ ha)⟩
    · rcases List.mem_append.mp hentry with hentry | hentry
      · exact h.category route hroute entry' hentry hnamed
      · obtain rfl := List.mem_singleton.mp hentry
        exact hcategory route hroute hnamed.symm
    · rw [show state.frozen = true from hfrozen] at hopen
      exact nomatch hopen
  | refreeze hfrozen => exact h
  | freeze hnamed =>
    refine ⟨h.distinct, h.category, fun _ route hroute => ?_⟩
    obtain ⟨entry, hentry⟩ := hnamed route hroute
    exact ⟨entry, mem_of_entry hentry⟩
  | deriver deriver => exact ⟨h.distinct, h.category, h.named⟩

theorem Consistent.tableAfter (h : Consistent state)
    (history : List (NodeDispatchCall Obj)) : Consistent (tableAfter state history) := by
  induction history generalizing state with
  | nil => exact h
  | cons call rest ih => exact ih (h.step (nodeDispatchStep_run state call))

theorem NodeDispatchStep.registers {state state' : NodeDispatchState Obj}
    (h : NodeDispatchStep state call (.ok ()) state') :
    state'.routes = state.routes ++ call.route.toList ∧
      state'.dispatchers = state.dispatchers ++ call.entry.toList := by
  cases h with
  | route route hopen hcategory => exact ⟨rfl, (List.append_nil _).symm⟩
  | dispatcher dispatcher entry hopen hnew hcategory => exact ⟨(List.append_nil _).symm, rfl⟩
  | refreeze hfrozen => exact ⟨(List.append_nil _).symm, (List.append_nil _).symm⟩
  | freeze hnamed => exact ⟨(List.append_nil _).symm, (List.append_nil _).symm⟩
  | deriver deriver => exact ⟨(List.append_nil _).symm, (List.append_nil _).symm⟩

theorem filterMap_cons_toList {α β : Type*} (f : α → Option β) (a : α) (l : List α) :
    (a :: l).filterMap f = (f a).toList ++ l.filterMap f := by
  rw [List.filterMap_cons]
  cases f a <;> rfl

theorem tableAfter_eq (state : NodeDispatchState Obj) (history : List (NodeDispatchCall Obj)) :
    (tableAfter state history).routes
        = state.routes ++ (returned state history).filterMap NodeDispatchCall.route ∧
      (tableAfter state history).dispatchers
        = state.dispatchers ++ (returned state history).filterMap NodeDispatchCall.entry := by
  induction history generalizing state with
  | nil =>
    rw [returned, List.filterMap_nil, List.filterMap_nil, List.append_nil, List.append_nil]
    exact ⟨rfl, rfl⟩
  | cons call rest ih =>
    have hstep := nodeDispatchStep_run state call
    have htable : tableAfter state (call :: rest) = tableAfter (call.run state).2 rest := rfl
    rw [htable, (ih _).1, (ih _).2, returned]
    generalize call.run state = result at hstep
    obtain ⟨outcome, state'⟩ := result
    cases outcome with
    | error e =>
      cases hstep
      exact ⟨rfl, rfl⟩
    | ok u =>
      obtain ⟨hroutes, hdispatchers⟩ := NodeDispatchStep.registers hstep
      dsimp only
      rw [filterMap_cons_toList, filterMap_cons_toList, hroutes, hdispatchers, List.append_assoc,
        List.append_assoc]
      exact ⟨rfl, rfl⟩

/-! ## Selection -/

section
variable {i : TopicInterpreter} {topic : String}
  {category : EnumMessageCategory} {messageType : String} {payload : Option Obj}

section
variable (h : Consistent state)
include h

theorem Consistent.any_eq (id : String) :
    (state.dispatchers.any fun entry => entry.dispatcherId = id && entry.admits messageType payload)
      = (state.entry id).any fun entry => entry.admits messageType payload := by
  rw [Bool.eq_iff_iff, List.any_eq_true, Option.any_eq_true]
  constructor
  · rintro ⟨entry, hentry, hboth⟩
    rw [Bool.and_eq_true, decide_eq_true_eq] at hboth
    exact ⟨entry, hboth.1 ▸ h.entry_eq hentry, hboth.2⟩
  · rintro ⟨entry, hentry, hadmits⟩
    obtain ⟨hmem, hid⟩ := mem_of_entry hentry
    refine ⟨entry, hmem, ?_⟩
    rw [Bool.and_eq_true, decide_eq_true_eq]
    exact ⟨hid, hadmits⟩

theorem routeMatch_eq {route : ModelDispatchRoute}
    (hroute : route ∈ state.routes) (seen : Finset String) :
    state.routeMatch i topic category messageType payload seen route =
      if route.handlerId ∉ seen ∧
          qualifies i state.dispatchers topic category messageType payload route = true then
        (state.entry route.handlerId).map fun entry => { routeId := route.routeId, entry := entry }
      else none := by
  unfold qualifies
  rw [h.any_eq]
  unfold NodeDispatchState.routeMatch NodeDispatchEntry.admits
  cases hentry : state.entry route.handlerId with
  | none => simp
  | some entry =>
    obtain ⟨hmem, hid⟩ := mem_of_entry hentry
    have hcategory := h.category route hroute entry hmem hid
    have htype : (route.messageType.isSome ∧ route.messageType ≠ some messageType) ↔
        (route.messageType.all fun required => required = messageType) = false := by
      cases route.messageType <;> simp
    have htypes : (entry.messageTypes.any fun types => decide (messageType ∉ types))
        = !entry.messageTypes.all fun types => decide (messageType ∈ types) := by
      cases entry.messageTypes <;> simp
    have hpayload : (payload.any fun payload => entry.payloadTypeMatcher.isSome &&
        !entry.payloadMatches payload) = !payload.all entry.payloadMatches := by
      unfold NodeDispatchEntry.payloadMatches
      cases payload <;> cases entry.payloadTypeMatcher <;> simp
    simp only [htype, htypes, hpayload, hcategory, ne_eq, not_true_eq_false, if_false,
      Option.any_some, Option.map_some]
    -- the checks come in another order
    split_ifs <;> simp_all

theorem findFrom_eq {routes : List ModelDispatchRoute}
    (hroutes : ∀ route ∈ routes, route ∈ state.routes) (seen : Finset String) :
    (state.findFrom i topic category messageType payload seen routes).map
        (fun found => found.entry.dispatcherId)
      = (firstOf ModelDispatchRoute.handlerId
          (qualifies i state.dispatchers topic category messageType payload) seen routes).map
        ModelDispatchRoute.handlerId := by
  induction routes generalizing seen with
  | nil => rfl
  | cons route rest ih =>
    rw [List.forall_mem_cons] at hroutes
    rw [NodeDispatchState.findFrom, firstOf]
    rw [routeMatch_eq h hroutes.1 seen]
    split_ifs with hkeep
    · have hsome : ∃ entry, state.entry route.handlerId = some entry := by
        have hqualifies := hkeep.2
        unfold qualifies at hqualifies
        rw [h.any_eq, Bool.and_eq_true, Option.any_eq_true] at hqualifies
        obtain ⟨entry, hentry, -⟩ := hqualifies.2
        exact ⟨entry, hentry⟩
      obtain ⟨entry, hentry⟩ := hsome
      rw [hentry, Option.map_some]
      dsimp only
      rw [List.map_cons, List.map_cons, ih hroutes.2, (mem_of_entry hentry).2]
    · exact ih hroutes.2 seen

/-- The dispatchers of the routes that qualify, each once, in the order of the first route that
does. -/
theorem findMatchingDispatchers_firstKeys :
    FirstKeys ModelDispatchRoute.handlerId
      (qualifies i state.dispatchers topic category messageType payload) state.routes
      ((state.findMatchingDispatchers i topic category messageType payload).map
        fun found => found.entry.dispatcherId) := by
  unfold NodeDispatchState.findMatchingDispatchers
  rw [findFrom_eq h fun _ hroute => hroute]
  exact firstKeys_firstOf _ _ _

end

theorem qualifies_perm {entries entries' : List (NodeDispatchEntry Obj)}
    (h : entries.Perm entries') :
    qualifies i entries topic category messageType payload
      = qualifies i entries' topic category messageType payload := by
  funext route
  unfold qualifies
  rw [h.any_eq]

end

def NodeDispatchState.selectedIds (i : TopicInterpreter) (state : NodeDispatchState Obj)
    (topic : String) (category : EnumMessageCategory) (messageType : String)
    (payload : Option Obj) : List String :=
  (state.findMatchingDispatchers i topic category messageType payload).map
    fun found => found.entry.dispatcherId

theorem dispatch_reports (i : ObjectInterpreter Obj)
    (hfrozen : state.frozen = true) (context : DispatchContext) {topic : String}
    (htopic : strip topic ≠ "") {category : EnumMessageCategory}
    (hcategory : EnumMessageCategory.fromTopic i.toTextInterpreter topic = some category)
    (envelope : NodeEnvelope Obj) :
    ∃ result, state.dispatch i context topic (some envelope) = .ok result ∧
      result.messageCategory = some category ∧
      result.messageType = some (envelope.messageType i) ∧
      let selected := state.selectedIds i.toTopicInterpreter topic category
        (envelope.messageType i) envelope.extractRoutingInputs.2
      (result.status = .success ↔ selected ≠ []) ∧
        result.dispatcherId = if selected = [] then none else some (", ".intercalate selected) := by
  unfold NodeDispatchState.dispatch NodeDispatchState.selectedIds
  rw [hfrozen, Bool.not_true, if_neg Bool.false_ne_true, if_neg htopic]
  dsimp only
  rw [hcategory]
  dsimp only
  cases state.findMatchingDispatchers i.toTopicInterpreter topic category (envelope.messageType i)
      envelope.extractRoutingInputs.2 with
  | nil => exact ⟨_, rfl, rfl, rfl, by simp, by simp⟩
  | cons first rest => exact ⟨_, rfl, rfl, rfl, by simp, by simp⟩

/-- A call that raises changes nothing. Behind a history that has frozen the table, every route
names a dispatcher of its category, and the dispatchers that a message selects are those of the
routes that qualify, each once, in the order of the first route that does: the order in which the
dispatchers were registered does not matter. -/
theorem nodeDispatch_law (i : ObjectInterpreter Obj) :
    (∀ (state : NodeDispatchState Obj) (call : NodeDispatchCall Obj) (e : PyException),
        (call.run state).1 = .error e → (call.run state).2 = state) ∧
      (∀ state : NodeDispatchState Obj, state.freeze.1 = .ok () → state.freeze.2.frozen = true) ∧
      ∀ history : List (NodeDispatchCall Obj), (tableAfter {} history).frozen = true →
        (∀ route ∈ registeredRoutes history, ∃ entry ∈ registeredDispatchers history,
          entry.dispatcherId = route.handlerId ∧ entry.category = route.messageCategory) ∧
        (∀ (topic : String) (category : EnumMessageCategory) (messageType : String)
            (payload : Option Obj),
          FirstKeys ModelDispatchRoute.handlerId
            (qualifies i.toTopicInterpreter (registeredDispatchers history) topic category
              messageType payload)
            (registeredRoutes history)
            ((tableAfter {} history).selectedIds i.toTopicInterpreter topic category messageType
              payload) ∧
          ((tableAfter {} history).selectedIds i.toTopicInterpreter topic category messageType
            payload).Nodup ∧
          ∀ history' : List (NodeDispatchCall Obj), (tableAfter {} history').frozen = true →
            registeredRoutes history' = registeredRoutes history →
            (registeredDispatchers history').Perm (registeredDispatchers history) →
            (tableAfter {} history').selectedIds i.toTopicInterpreter topic category messageType
                payload
              = (tableAfter {} history).selectedIds i.toTopicInterpreter topic category
                messageType payload) ∧
        ∀ (context : DispatchContext) (topic : String) (category : EnumMessageCategory)
          (envelope : NodeEnvelope Obj), strip topic ≠ "" →
          EnumMessageCategory.fromTopic i.toTextInterpreter topic = some category →
          ∃ result, (tableAfter {} history).dispatch i context topic (some envelope) = .ok result ∧
            result.messageCategory = some category ∧
            result.messageType = some (envelope.messageType i) ∧
            let selected := (tableAfter {} history).selectedIds i.toTopicInterpreter topic category
              (envelope.messageType i) envelope.extractRoutingInputs.2
            (result.status = .success ↔ selected ≠ []) ∧
              result.dispatcherId
                = if selected = [] then none else some (", ".intercalate selected) := by
  have htable : ∀ history : List (NodeDispatchCall Obj),
      (tableAfter {} history).routes = registeredRoutes history ∧
        (tableAfter {} history).dispatchers = registeredDispatchers history :=
    tableAfter_eq {}
  -- what is selected depends on the registrations only, not on the calls
  have hselected : ∀ (history : List (NodeDispatchCall Obj)) (topic : String)
      (category : EnumMessageCategory) (messageType : String) (payload : Option Obj),
      FirstKeys ModelDispatchRoute.handlerId
        (qualifies i.toTopicInterpreter (registeredDispatchers history) topic category messageType
          payload)
        (registeredRoutes history)
        ((tableAfter {} history).selectedIds i.toTopicInterpreter topic category messageType
          payload) := by
    intro history topic category messageType payload
    rw [← (htable history).1, ← (htable history).2]
    exact findMatchingDispatchers_firstKeys (consistent_empty.tableAfter history)
  refine ⟨fun state call e => run_of_error, fun state hok => ?_, fun history hfrozen =>
    ⟨fun route hroute => ?_, fun topic category messageType payload => ⟨hselected _ _ _ _ _,
      (hselected _ _ _ _ _).nodup, fun history' _ hroutes hperm => ?_⟩,
      fun context topic category envelope htopic hcategory =>
        dispatch_reports i hfrozen context htopic hcategory envelope⟩⟩
  · have hstep := nodeDispatchStep_run state .freeze
    rw [show (NodeDispatchCall.freeze.run state).1 = .ok () from hok] at hstep
    show (NodeDispatchCall.freeze.run state).2.frozen = true
    generalize (NodeDispatchCall.freeze.run state).2 = state' at hstep
    cases hstep with
    | refreeze hfrozen => exact hfrozen
    | freeze hnamed => rfl
  · have hconsistent := consistent_empty.tableAfter history
    rw [← (htable history).1] at hroute
    obtain ⟨entry, hentry, hid⟩ := hconsistent.named hfrozen route hroute
    have hcategory := hconsistent.category route hroute entry hentry hid
    rw [(htable history).2] at hentry
    exact ⟨entry, hentry, hid, hcategory.symm⟩
  · have hother := hselected history' topic category messageType payload
    rw [hroutes, qualifies_perm hperm] at hother
    exact hother.unique (hselected _ _ _ _ _)

/-! ## Examples -/

def plainObjects : ObjectInterpreter String :=
  { asciiTopics with
    str := id
    typeName := fun _ => "str"
    asUUID := fun _ => none }

def userRoute (routeId : String) (messageType : Option String) (handlerId : String)
    (hroute : 1 ≤ routeId.length ∧ routeId.length ≤ 200)
    (htype : ∀ messageType' ∈ messageType, messageType'.length ≤ 200)
    (hhandler : 1 ≤ handlerId.length ∧ handlerId.length ≤ 200) : ModelDispatchRoute where
  routeId := routeId
  topicPattern := "*.user.events.**"
  messageCategory := .event
  messageType := messageType
  handlerId := handlerId
  routeId_length := hroute
  topicPattern_length := by decide
  topicPattern_valid := by decide
  messageType_length := htype
  handlerId_length := hhandler

def eventEntry (dispatcherId : String) : NodeDispatchEntry String where
  dispatcherId := dispatcherId
  category := .event
  messageTypes := none
  payloadTypeMatcher := none

def eventDispatcher (dispatcherId : String) : NodeDispatchCall String :=
  .registerDispatcher .callable (eventEntry dispatcherId)

/-- Three routes to two dispatchers, of which the first does not qualify for every message. -/
def userRoutes : List (NodeDispatchCall String) :=
  [.registerRoute (some (userRoute "r1" (some "UserDeleted") "audit" (by decide) (by decide)
      (by decide))),
    .registerRoute (some (userRoute "r2" none "mail" (by decide) (by decide) (by decide))),
    .registerRoute (some (userRoute "r3" none "audit" (by decide) (by decide) (by decide)))]

example :
    (tableAfter {} (userRoutes ++ [eventDispatcher "audit", eventDispatcher "mail",
        .freeze])).selectedIds plainObjects.toTopicInterpreter "dev.user.events.v1" .event
      "UserCreated" none = ["mail", "audit"] := by
  decide +kernel

theorem nodeDispatch_law_userRoutes :
    (tableAfter {} ([eventDispatcher "mail", eventDispatcher "audit"] ++ userRoutes ++
        [.freeze])).selectedIds plainObjects.toTopicInterpreter "dev.user.events.v1" .event
        "UserCreated" none
      = (tableAfter {} (userRoutes ++ [eventDispatcher "audit", eventDispatcher "mail",
        .freeze])).selectedIds plainObjects.toTopicInterpreter "dev.user.events.v1" .event
        "UserCreated" none := by
  have hperm : (registeredDispatchers ([eventDispatcher "mail", eventDispatcher "audit"] ++
        userRoutes ++ [.freeze])).Perm
      (registeredDispatchers (userRoutes ++ [eventDispatcher "audit", eventDispatcher "mail",
        .freeze])) := by
    show [eventEntry "mail", eventEntry "audit"].Perm [eventEntry "audit", eventEntry "mail"]
    exact List.Perm.swap _ _ _
  exact (((nodeDispatch_law plainObjects).2.2 _ (by decide +kernel)).2.1 _ _ _ _).2.2 _
    (by decide +kernel) rfl hperm

end OmnibaseCore.Dispatch
