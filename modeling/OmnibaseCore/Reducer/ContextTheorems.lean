import OmnibaseCore.Python.Dict
import OmnibaseCore.Reducer.Process

/-!
# What the caller can put into the context

The context of the guards is the system's own three entries, updated with what the caller's
metadata holds under names that are not reserved. `faithful_iff` says for which inputs the system's
entries are what the guards see, and `unspoofed_iff` that for these, and only for these, metadata
under the names of the system has no influence on what `process` does.
-/

namespace OmnibaseCore.Reducer

open Fsm

/-! ## The context -/

def systemContext (input : ModelReducerInput) : Context := [
  ("input_data", .list input.data), ("reduction_type", .str input.reductionType.value),
  ("operation_id", .str input.operationId.str)]

def systemKeys : List String := ["input_data", "reduction_type", "operation_id"]

def reservedKeys (input : ModelReducerInput) : List String :=
  (input.metadata.modelDump.keys.filter isReserved).insertionSort (· ≤ ·)

def mergeable (input : ModelReducerInput) : Context :=
  input.metadata.modelDump.filter fun e => ¬ isReserved e.1

def contextOf (input : ModelReducerInput) : Context :=
  Dict.update (systemContext input) (mergeable input)

def reservedMessage (i : Interpreter) (input : ModelReducerInput) : String :=
  "Ignoring reserved FSM context keys supplied in reducer metadata: " ++
    i.reprStrs (reservedKeys input) ++ ". Keys prefixed '" ++ fsmReservedContextPrefix ++
    "' are reserved for system use and are not merged into the FSM context."

def reservedWarning (i : Interpreter) (input : ModelReducerInput) : ModelIntent :=
  { intentType := "log_event"
    target := "logging_service"
    payload := .logEvent "WARNING" (reservedMessage i input)
      [("operation_id", .str input.operationId.str),
        ("reserved_keys", .list ((reservedKeys input).map .str)),
        ("reserved_prefix", .str fsmReservedContextPrefix)]
    priority := 3 }

section
variable {i : Interpreter} {input input' : ModelReducerInput} {context : Context}
  {warnings : List ModelIntent}

theorem modelPayloadLogEvent_eq (level message : String) (fields : Context)
    (hpos : 1 ≤ message.length) :
    modelPayloadLogEvent i level message fields =
      if message.length ≤ 4096 then .ok (.logEvent level message fields)
      else .error (.validationError (i.validationText "ModelPayloadLogEvent" ["message"])) := by
  unfold modelPayloadLogEvent checkLengths
  dsimp only
  by_cases hlength : message.length ≤ 4096
  · have hfits : ¬ (message.length < 1 ∨ 4096 < message.length) := by omega
    rw [List.filter_cons_of_neg (by simpa using hfits), List.filter_nil,
      if_neg (not_not.mpr rfl), if_pos hlength]
    rfl
  · have hlong : message.length < 1 ∨ 4096 < message.length := by omega
    rw [List.filter_cons_of_pos (by simpa using hlong), List.filter_nil,
      if_pos (List.cons_ne_nil _ _), if_neg hlength]
    rfl

theorem reservedMessage_pos (i : Interpreter) (input : ModelReducerInput) :
    1 ≤ (reservedMessage i input).length := by
  unfold reservedMessage
  simp only [String.length_append]
  have htext : "Ignoring reserved FSM context keys supplied in reducer metadata: ".length = 65 := by
    decide
  omega

/-- The context, with one warning if there are reserved keys. -/
theorem buildFsmContext_eq_ok_iff :
    buildFsmContext i input = .ok (context, warnings) ↔ context = contextOf input ∧
      ((reservedKeys input = [] ∧ warnings = []) ∨
        (reservedKeys input ≠ [] ∧ (reservedMessage i input).length ≤ 4096 ∧
          warnings = [reservedWarning i input])) := by
  have hbuild : buildFsmContext i input =
      if reservedKeys input = [] then .ok (contextOf input, [])
      else do
        let payload ← modelPayloadLogEvent i "WARNING" (reservedMessage i input)
          [("operation_id", .str input.operationId.str),
            ("reserved_keys", .list ((reservedKeys input).map .str)),
            ("reserved_prefix", .str fsmReservedContextPrefix)]
        return (contextOf input,
          [{ intentType := "log_event", target := "logging_service", payload, priority := 3 }]) :=
    rfl
  rw [hbuild]
  by_cases hnone : reservedKeys input = []
  · rw [if_pos hnone, Except.ok.injEq, Prod.mk.injEq, eq_comm, @eq_comm _ [] warnings]
    simp [hnone]
  · rw [if_neg hnone, modelPayloadLogEvent_eq _ _ _ (reservedMessage_pos i input)]
    by_cases hlength : (reservedMessage i input).length ≤ 4096
    · rw [if_pos hlength]
      constructor
      · intro h
        obtain ⟨hcontext, hwarnings⟩ := Prod.mk.inj (Except.ok.inj h)
        exact ⟨hcontext.symm, Or.inr ⟨hnone, hlength, hwarnings.symm⟩⟩
      · rintro ⟨rfl, ⟨hempty, -⟩ | ⟨-, -, rfl⟩⟩
        · exact absurd hempty hnone
        · rfl
    · rw [if_neg hlength]
      constructor
      · exact fun h => nomatch h
      · rintro ⟨-, ⟨hempty, -⟩ | ⟨-, hfits, -⟩⟩
        · exact absurd hempty hnone
        · exact absurd hfits hlength

/-! ## The metadata -/

def declaredFields : List String := [
  "source", "trace_id", "span_id", "correlation_id", "group_key", "partition_id", "window_id",
  "tags", "trigger"]

/-- The keys of the extra fields are distinct, and none is the name of a declared field. -/
def ExtraKeys (m : ModelReducerMetadata) : Prop :=
  m.extra.keys.Nodup ∧ ∀ key ∈ m.extra.keys, key ∉ declaredFields

def declared (m : ModelReducerMetadata) : Context := [
  ("source", optional .str m.source), ("trace_id", optional .str m.traceId),
  ("span_id", optional .str m.spanId), ("correlation_id", optional .str m.correlationId),
  ("group_key", optional .str m.groupKey), ("partition_id", optional .uuid m.partitionId),
  ("window_id", optional .uuid m.windowId), ("tags", .list (m.tags.map .str)),
  ("trigger", optional .str m.trigger)]

/-- Whether a value is not `None`. -/
def isSet : Value → Bool
  | .none => false
  | _ => true

theorem modelDump_eq (m : ModelReducerMetadata) :
    m.modelDump = (declared m ++ m.extra).filter fun e => isSet e.2 := by
  unfold ModelReducerMetadata.modelDump
  apply List.filter_congr
  intro e _
  cases e.2 <;> rfl

theorem nodup_keys_declared_append {m : ModelReducerMetadata} (hm : ExtraKeys m) :
    (Dict.keys (declared m ++ m.extra)).Nodup := by
  have hdeclared : declaredFields.Nodup := by decide
  rw [Dict.keys_append, List.nodup_append]
  exact ⟨hdeclared, hm.1, fun a ha b hb heq => hm.2 b hb (heq ▸ ha)⟩

theorem nodup_keys_modelDump {m : ModelReducerMetadata} (hm : ExtraKeys m) :
    (Dict.keys m.modelDump).Nodup := by
  rw [modelDump_eq]
  exact List.Nodup.sublist (List.Sublist.map Prod.fst List.filter_sublist)
    (nodup_keys_declared_append hm)

section
variable (hm : ExtraKeys input.metadata)
include hm

theorem lookup_mergeable (key : String) :
    (mergeable input).lookup key = ((((declared input.metadata).lookup key).or
      (input.metadata.extra.lookup key)).filter isSet).filter fun _ => !isReserved key := by
  unfold mergeable
  simp only [Bool.not_eq_true, Bool.decide_eq_false]
  rw [Dict.lookup_filter (nodup_keys_modelDump hm), modelDump_eq,
    Dict.lookup_filter (nodup_keys_declared_append hm), Dict.lookup_append]

theorem nodup_keys_mergeable :
    (Dict.keys (mergeable input)).Nodup :=
  List.Nodup.sublist (List.Sublist.map Prod.fst List.filter_sublist) (nodup_keys_modelDump hm)

theorem lookup_contextOf (key : String) :
    (contextOf input).lookup key
      = ((mergeable input).lookup key).or ((systemContext input).lookup key) :=
  Dict.lookup_update (nodup_keys_mergeable hm)

end

theorem mem_mergeable {e : String × Value} :
    e ∈ mergeable input ↔ e ∈ input.metadata.modelDump ∧ isReserved e.1 = false := by
  unfold mergeable
  simp

theorem mem_reservedKeys {key : String} :
    key ∈ reservedKeys input ↔ key ∈ Dict.keys input.metadata.modelDump ∧ isReserved key = true := by
  unfold reservedKeys
  rw [(List.perm_insertionSort _ _).mem_iff, List.mem_filter]
  rfl

/-! ## One input -/

/-- The intent is a log event of level `WARNING` that lists reserved keys. -/
def IsWarning (intent : ModelIntent) : Prop :=
  intent.intentType = "log_event" ∧ ∃ message fields,
    intent.payload = .logEvent "WARNING" message fields ∧ "reserved_keys" ∈ Dict.keys fields

/-- The system's entries are in the context, no reserved key is, all other entries of the metadata
are, and there is a warning exactly if a reserved key has been dropped. -/
structure FaithfulContext (input : ModelReducerInput) (context : Context)
    (warnings : List ModelIntent) : Prop where
  system : ∀ e ∈ systemContext input, context.lookup e.1 = some e.2
  unreserved : ∀ key ∈ context.keys, isReserved key = false
  present : ∀ e ∈ input.metadata.modelDump, e.1 ∉ systemKeys → isReserved e.1 = false →
    context.lookup e.1 = some e.2
  warns : (∃ intent ∈ warnings, IsWarning intent) ↔
    ∃ key ∈ Dict.keys input.metadata.modelDump, isReserved key = true

/-- `process` makes the transition in a faithful context, and emits a warning exactly if a reserved
key has been dropped. -/
structure ProcessedIn (i : Interpreter) (input : ModelReducerInput) (context : Context)
    (warnings : List ModelIntent) : Prop where
  builds : buildFsmContext i input = .ok (context, warnings)
  faithful : FaithfulContext input context warnings
  process : ∀ (node : NodeReducer) fsm projections, node.fsmContract = some fsm →
    node.process i input projections =
      match node.executeFsmTransition i fsm (triggerOf input) context with
      | (node, .error e) => (node, .error e)
      | (node, .ok r) => (node, buildOutput i input projections warnings r)
  emits : ∀ (node : NodeReducer) projections output,
    (node.process i input projections).2 = .ok output →
    ((∃ intent ∈ output.intents, IsWarning intent) ↔
      ∃ key ∈ Dict.keys input.metadata.modelDump, isReserved key = true)

def Faithful (i : Interpreter) (input : ModelReducerInput) : Prop :=
  ∃ context warnings, ProcessedIn i input context warnings

/-- The metadata holds nothing else under the names of the system, and the reserved keys can be
reported. -/
structure Honest (i : Interpreter) (input : ModelReducerInput) : Prop where
  genuine : ∀ e ∈ input.metadata.modelDump, ∀ value, (e.1, value) ∈ systemContext input →
    e.2 = value
  reportable : reservedKeys input = [] ∨ (reservedMessage i input).length ≤ 4096

theorem lookup_systemContext {e : String × Value} (h : e ∈ systemContext input) :
    (systemContext input).lookup e.1 = some e.2 := by
  have hnodup : (Dict.keys (systemContext input)).Nodup := by
    show systemKeys.Nodup
    decide
  exact (Dict.lookup_eq_some_iff hnodup).mpr h

theorem isReserved_systemKeys : ∀ key ∈ systemKeys, isReserved key = false := by decide

theorem keys_systemContext (input : ModelReducerInput) :
    Dict.keys (systemContext input) = systemKeys := rfl

theorem faithfulContext_of_honest (hm : ExtraKeys input.metadata) (h : Honest i input)
    (hbuild : buildFsmContext i input = .ok (context, warnings)) :
    FaithfulContext input context warnings := by
  obtain ⟨rfl, hwarnings⟩ := buildFsmContext_eq_ok_iff.mp hbuild
  refine ⟨fun e he => ?_, fun key hkey => ?_, fun e he hsystem hreserved => ?_, ?_⟩
  · rw [lookup_contextOf hm, lookup_systemContext he]
    cases hlookup : (mergeable input).lookup e.1 with
    | none => rfl
    | some v =>
      have hv := (mem_mergeable.mp (Dict.mem_of_lookup hlookup)).1
      have hvalue : v = e.2 := h.genuine _ hv e.2 he
      rw [hvalue]
      rfl
  · rcases Dict.mem_keys_update.mp hkey with hkey | hkey
    · exact isReserved_systemKeys key hkey
    · obtain ⟨v, hv⟩ := Dict.mem_keys.mp hkey
      exact (mem_mergeable.mp hv).2
  · have hmem : (e.1, e.2) ∈ mergeable input := mem_mergeable.mpr ⟨he, hreserved⟩
    rw [lookup_contextOf hm, (Dict.lookup_eq_some_iff (nodup_keys_mergeable hm)).mpr hmem]
    rfl
  · have hkeys : (∃ key ∈ Dict.keys input.metadata.modelDump, isReserved key = true) ↔
        reservedKeys input ≠ [] := by
      constructor
      · rintro ⟨key, hkey⟩
        exact List.ne_nil_of_mem (mem_reservedKeys.mpr hkey)
      · intro hsome
        obtain ⟨key, hkey⟩ := List.exists_mem_of_ne_nil _ hsome
        exact ⟨key, mem_reservedKeys.mp hkey⟩
    rw [hkeys]
    rcases hwarnings with ⟨hnone, rfl⟩ | ⟨hsome, -, rfl⟩
    · simp [hnone]
    · refine iff_of_true ⟨_, List.mem_singleton_self _, ?_⟩ hsome
      exact ⟨rfl, _, _, rfl, by simp [Dict.keys]⟩

/-! ## What `process` selects -/

/-- The transition that the guards select in the context of an input. -/
def NodeReducer.selection (i : Interpreter) (node : NodeReducer) (input : ModelReducerInput) :
    Except PyException (Option TransitionSelection) :=
  match node.fsmContract with
  | none => .error contractNotLoaded
  | some fsm => do
    let (context, _) ← buildFsmContext i input
    let currentState := match node.fsmState with
      | some s => s.currentState
      | none => fsm.initialState
    selectTransition i fsm currentState (triggerOf input) context

theorem executeFsmTransition_ok {node node' : NodeReducer} {fsm : ModelFSMSubcontract}
    {trigger : String} {r : ModelFSMTransitionResult}
    (h : node.executeFsmTransition i fsm trigger context = (node', .ok r)) :
    executeTransition i fsm (match node.fsmState with
      | some s => s.currentState
      | none => fsm.initialState) trigger context = .ok r := by
  unfold NodeReducer.executeFsmTransition at h
  dsimp only at h
  split at h
  · exact nomatch (Prod.mk.inj h).2
  · rename_i result hexecute
    have hsame : result = r := by
      split_ifs at h
      · split at h
        · exact nomatch (Prod.mk.inj h).2
        · exact Except.ok.inj (Prod.mk.inj h).2
      · exact Except.ok.inj (Prod.mk.inj h).2
    rw [← hsame]
    exact hexecute

/-- What an output of `process` is made of: the selected transition, the warnings of the context,
and intents that warn of no reserved key. -/
theorem process_selects {node : NodeReducer} {projections : List ModelProjectionIntent}
    {output : ModelReducerOutput} (h : (node.process i input projections).2 = .ok output) :
    ∃ context warnings selection rest, buildFsmContext i input = .ok (context, warnings) ∧
      node.selection i input = .ok (some selection) ∧
      output.fsmMetadata.fsmTransitionName = some selection.transition.transitionName ∧
      output.intents = warnings ++ rest ∧ ∀ intent ∈ rest, ¬ IsWarning intent := by
  unfold NodeReducer.process at h
  unfold NodeReducer.selection
  cases hcontract : node.fsmContract with
  | none =>
    rw [hcontract] at h
    exact nomatch h
  | some fsm =>
    rw [hcontract] at h
    cases hbuild : buildFsmContext i input with
    | error e =>
      rw [hbuild] at h
      exact nomatch h
    | ok built =>
      obtain ⟨context, warnings⟩ := built
      rw [hbuild] at h
      dsimp only at h ⊢
      rcases hexecute : node.executeFsmTransition i fsm (triggerOf input) context with
        ⟨node', _ | r⟩
      · rw [hexecute] at h
        exact nomatch h
      · rw [hexecute] at h
        obtain ⟨_, houtput, hmetadata, models, hintents, hmodels⟩ :=
          buildOutput_ok (i := i) input projections warnings r
        obtain rfl := Except.ok.inj (houtput.symm.trans h)
        obtain ⟨selection, hselect, hname, hlogs⟩ :=
          executeTransition_selects (executeFsmTransition_ok hexecute)
        refine ⟨context, warnings, selection, r.intents ++ models, rfl, hselect, ?_, ?_, ?_⟩
        · rw [hmetadata]
          exact hname
        · rw [hintents, List.append_assoc]
        · rintro intent hintent ⟨htype, message, fields, hpayload, hreserved⟩
          rcases List.mem_append.mp hintent with hintent | hintent
          · obtain ⟨_, _, _, _, _, hrejection⟩ := hlogs intent hintent htype
            rw [hpayload] at hrejection
            cases hrejection
            simp [Dict.keys] at hreserved
          · -- a projection is no warning
            rw [hmodels intent hintent] at htype
            exact absurd htype (by decide)

theorem processedIn_of_faithful (hbuild : buildFsmContext i input = .ok (context, warnings))
    (hfaithful : FaithfulContext input context warnings) :
    ProcessedIn i input context warnings where
  builds := hbuild
  faithful := hfaithful
  process node fsm projections hcontract := NodeReducer.process_eq hcontract hbuild
  emits node projections output houtput := by
    obtain ⟨context', warnings', selection, rest, hbuild', -, -, hintents, hrest⟩ :=
      process_selects houtput
    rw [hbuild, Except.ok.injEq, Prod.mk.injEq] at hbuild'
    rw [← hfaithful.warns, hintents, ← hbuild'.2]
    constructor
    · rintro ⟨intent, hintent, hwarning⟩
      rcases List.mem_append.mp hintent with hintent | hintent
      · exact ⟨intent, hintent, hwarning⟩
      · exact absurd hwarning (hrest intent hintent)
    · rintro ⟨intent, hintent, hwarning⟩
      exact ⟨intent, List.mem_append_left _ hintent, hwarning⟩

/-- An input is treated faithfully if and only if it is honest. -/
theorem faithful_iff (hm : ExtraKeys input.metadata) : Faithful i input ↔ Honest i input := by
  constructor
  · rintro ⟨context, warnings, hbuild, hfaithful, -, -⟩
    obtain ⟨rfl, hwarnings⟩ := buildFsmContext_eq_ok_iff.mp hbuild
    refine ⟨fun e he value hvalue => ?_, ?_⟩
    · have hsystem := hfaithful.system (e.1, value) hvalue
      have hreserved := isReserved_systemKeys e.1
        (keys_systemContext input ▸ Dict.mem_keys.mpr ⟨value, hvalue⟩)
      have hmem : (e.1, e.2) ∈ mergeable input := mem_mergeable.mpr ⟨he, hreserved⟩
      rw [lookup_contextOf hm, (Dict.lookup_eq_some_iff (nodup_keys_mergeable hm)).mpr hmem,
        Option.some_or, Option.some.injEq] at hsystem
      exact hsystem
    · rcases hwarnings with ⟨hnone, -⟩ | ⟨-, hlength, -⟩
      · exact Or.inl hnone
      · exact Or.inr hlength
  · intro h
    by_cases hnone : reservedKeys input = []
    · have hbuild : buildFsmContext i input = .ok (contextOf input, []) :=
        buildFsmContext_eq_ok_iff.mpr ⟨rfl, Or.inl ⟨hnone, rfl⟩⟩
      exact ⟨_, _, processedIn_of_faithful hbuild (faithfulContext_of_honest hm h hbuild)⟩
    · have hlength := h.reportable.resolve_left hnone
      have hbuild : buildFsmContext i input = .ok (contextOf input, [reservedWarning i input]) :=
        buildFsmContext_eq_ok_iff.mpr ⟨rfl, Or.inr ⟨hnone, hlength, rfl⟩⟩
      exact ⟨_, _, processedIn_of_faithful hbuild (faithfulContext_of_honest hm h hbuild)⟩

/-! ## What the guards see -/

theorem dictGet_toValue (context : Context) (key : String) :
    dictGet (context.map fun e => (.str e.1, e.2)) key = context.get key := by
  induction context with
  | nil => rfl
  | cons e context ih =>
    unfold dictGet Context.get at ih ⊢
    by_cases heq : key = e.1
    · rw [heq, Dict.lookup_cons_self, List.map_cons, List.find?_cons_of_pos (by simp)]
      rfl
    · rw [Dict.lookup_cons_of_ne heq, List.map_cons,
        List.find?_cons_of_neg (by simpa using Ne.symm heq)]
      exact ih

theorem splitAt_ne_nil (c : Char) (s : String) : splitAt c s ≠ [] := by
  have hpieces : ∀ (l piece : List Char), pieces (fun d => d = c) piece l ≠ [] := by
    intro l
    induction l with
    | nil => exact fun piece => List.cons_ne_nil _ _
    | cons d l ih =>
      intro piece
      unfold pieces
      split_ifs
      · exact List.cons_ne_nil _ _
      · exact ih _
  unfold splitAt
  rw [ne_eq, List.map_eq_nil_iff]
  exact hpieces _ _

theorem getNestedFieldValue_congr {context context' : Context}
    (h : ∀ key, context.get key = context'.get key) (path : String) :
    getNestedFieldValue context path = getNestedFieldValue context' path := by
  unfold getNestedFieldValue
  rw [h]
  cases hsegments : splitAt '.' path with
  | nil => exact absurd hsegments (splitAt_ne_nil _ _)
  | cons segment rest =>
    unfold followPath Context.toValue
    dsimp only
    rw [dictGet_toValue, dictGet_toValue, h]

theorem evaluateSingleCondition_congr {context context' : Context}
    (h : ∀ key, context.get key = context'.get key) (condition : ModelFSMTransitionCondition) :
    evaluateSingleCondition i condition context = evaluateSingleCondition i condition context' := by
  unfold evaluateSingleCondition
  cases parseExpression i condition.expression false with
  | error e => rfl
  | ok parsed =>
    obtain ⟨fieldName, operator, expectedValue⟩ := parsed
    dsimp only
    rw [getNestedFieldValue_congr h]

theorem selectTransition_congr {context context' : Context}
    (h : ∀ condition, evaluateSingleCondition i condition context
      = evaluateSingleCondition i condition context')
    (fsm : ModelFSMSubcontract) (fromState trigger : String) :
    selectTransition i fsm fromState trigger context
      = selectTransition i fsm fromState trigger context' := by
  have hfailed : ∀ conditions, failedConditions i context conditions
      = failedConditions i context' conditions := by
    intro conditions
    induction conditions with
    | nil => rfl
    | cons condition conditions ih => rw [failedConditions, failedConditions, ih, h]
  have hloop : ∀ transitions first, selectLoop i context first transitions
      = selectLoop i context' first transitions := by
    intro transitions
    induction transitions with
    | nil => exact fun _ => rfl
    | cons t transitions ih =>
      intro first
      rw [selectLoop, selectLoop, evaluateFailedConditions, evaluateFailedConditions, hfailed]
      simp only [ih]
  unfold selectTransition
  dsimp only
  rw [hloop]

/-! ## Two inputs -/

/-- The inputs differ only in entries of the metadata under names of the system. -/
structure DiffersInSystemKeys (input input' : ModelReducerInput) : Prop where
  same : input' = { input with metadata := { input.metadata with extra := input'.metadata.extra } }
  entries : ∀ key ∉ systemKeys,
    input.metadata.extra.lookup key = input'.metadata.extra.lookup key

/-- Both inputs are processed in faithful contexts, every guard has the same value on both, and for
both every node selects the same transition, which its output names. -/
structure Unspoofed (i : Interpreter) (input input' : ModelReducerInput) : Prop where
  faithful : Faithful i input
  faithful' : Faithful i input'
  guards : ∀ context warnings context' warnings',
    buildFsmContext i input = .ok (context, warnings) →
    buildFsmContext i input' = .ok (context', warnings') → ∀ condition,
      evaluateSingleCondition i condition context = evaluateSingleCondition i condition context'
  selection : ∀ node : NodeReducer, node.selection i input = node.selection i input'
  transition : ∀ (node : NodeReducer) projections output output',
    (node.process i input projections).2 = .ok output →
    (node.process i input' projections).2 = .ok output' →
    output.fsmMetadata.fsmTransitionName = output'.fsmMetadata.fsmTransitionName

section
variable (h : DiffersInSystemKeys input input')
include h

theorem DiffersInSystemKeys.systemContext_eq :
    systemContext input' = systemContext input := by
  rw [h.same]
  rfl

theorem DiffersInSystemKeys.triggerOf_eq :
    triggerOf input' = triggerOf input := by
  rw [h.same]
  rfl

theorem DiffersInSystemKeys.lookup_mergeable
    (hm : ExtraKeys input.metadata) (hm' : ExtraKeys input'.metadata) {key : String}
    (hkey : key ∉ systemKeys) :
    (mergeable input).lookup key = (mergeable input').lookup key := by
  have hdeclared : declared input'.metadata = declared input.metadata := by
    rw [h.same]
    rfl
  rw [Reducer.lookup_mergeable hm, Reducer.lookup_mergeable hm', hdeclared, h.entries key hkey]

theorem DiffersInSystemKeys.get_eq (hm : ExtraKeys input.metadata) (hm' : ExtraKeys input'.metadata)
    {context context' : Context} {warnings warnings' : List ModelIntent}
    (hbuild : buildFsmContext i input = .ok (context, warnings))
    (hbuild' : buildFsmContext i input' = .ok (context', warnings'))
    (hfaithful : FaithfulContext input context warnings)
    (hfaithful' : FaithfulContext input' context' warnings') (key : String) :
    context.get key = context'.get key := by
  unfold Context.get
  by_cases hkey : key ∈ systemKeys
  · rw [← keys_systemContext input] at hkey
    obtain ⟨v, hv⟩ := Dict.mem_keys.mp hkey
    have hv' : (key, v) ∈ systemContext input' := h.systemContext_eq ▸ hv
    rw [hfaithful.system _ hv, hfaithful'.system _ hv']
  · obtain ⟨rfl, -⟩ := buildFsmContext_eq_ok_iff.mp hbuild
    obtain ⟨rfl, -⟩ := buildFsmContext_eq_ok_iff.mp hbuild'
    rw [lookup_contextOf hm, lookup_contextOf hm', h.lookup_mergeable hm hm' hkey,
      h.systemContext_eq]

end

/-- Metadata under the names of the system has no influence if and only if both inputs are
honest. -/
theorem unspoofed_iff (h : DiffersInSystemKeys input input') (hm : ExtraKeys input.metadata)
    (hm' : ExtraKeys input'.metadata) :
    Unspoofed i input input' ↔ Honest i input ∧ Honest i input' := by
  rw [← faithful_iff hm, ← faithful_iff hm']
  refine ⟨fun hun => ⟨hun.faithful, hun.faithful'⟩, fun ⟨hfaithful, hfaithful'⟩ => ?_⟩
  obtain ⟨context, warnings, hprocessed⟩ := hfaithful
  obtain ⟨context', warnings', hprocessed'⟩ := hfaithful'
  have hguards : ∀ condition, evaluateSingleCondition i condition context
      = evaluateSingleCondition i condition context' :=
    evaluateSingleCondition_congr (h.get_eq hm hm' hprocessed.builds hprocessed'.builds
      hprocessed.faithful hprocessed'.faithful)
  have hselection : ∀ node : NodeReducer, node.selection i input = node.selection i input' := by
    intro node
    unfold NodeReducer.selection
    cases node.fsmContract with
    | none => rfl
    | some fsm =>
      rw [hprocessed.builds, hprocessed'.builds, h.triggerOf_eq]
      exact selectTransition_congr hguards fsm _ _
  refine ⟨⟨_, _, hprocessed⟩, ⟨_, _, hprocessed'⟩, ?_, hselection, ?_⟩
  · intro built warnings₁ built' warnings₂ hbuilt hbuilt'
    rw [hprocessed.builds, Except.ok.injEq, Prod.mk.injEq] at hbuilt
    rw [hprocessed'.builds, Except.ok.injEq, Prod.mk.injEq] at hbuilt'
    rw [← hbuilt.1, ← hbuilt'.1]
    exact hguards
  · intro node projections output output' houtput houtput'
    obtain ⟨_, _, selection, _, -, hselected, hname, -⟩ := process_selects houtput
    obtain ⟨_, _, selection', _, -, hselected', hname', -⟩ := process_selects houtput'
    rw [hselection node, hselected', Except.ok.injEq, Option.some.injEq] at hselected
    rw [hname, hname', hselected]

end

/-! ## Spoofed metadata -/

def foldInput (extra : Context) : ModelReducerInput :=
  { data := [.int 1]
    reductionType := .fold
    operationId := ⟨7⟩
    streamingMode := .batch
    metadata :=
      { source := none, traceId := none, spanId := none, correlationId := none, groupKey := none
        partitionId := none, windowId := none, tags := [], trigger := none, extra } }

theorem unspoofed_iff_foldInput :
    Unspoofed plainInterpreter (foldInput []) (foldInput [("reduction_type", .str "fold")]) ↔
      Honest plainInterpreter (foldInput []) ∧
        Honest plainInterpreter (foldInput [("reduction_type", .str "fold")]) := by
  refine unspoofed_iff ⟨rfl, fun key hkey => ?_⟩ ⟨by decide, by decide⟩ ⟨by decide, by decide⟩
  have hne : key ≠ "reduction_type" := by
    rintro rfl
    exact hkey (by decide)
  exact (Dict.lookup_cons_of_ne hne _ _).symm

/-- The caller chooses the reduction type that the guards see. -/
theorem foldInput_spoofed :
    DiffersInSystemKeys (foldInput []) (foldInput [("reduction_type", .str "merge")]) ∧
      ¬ Unspoofed plainInterpreter (foldInput []) (foldInput [("reduction_type", .str "merge")]) :=
    by
  refine ⟨⟨rfl, fun key hkey => ?_⟩, fun h => ?_⟩
  · have hne : key ≠ "reduction_type" := by
      rintro rfl
      exact hkey (by decide)
    exact (Dict.lookup_cons_of_ne hne _ _).symm
  · have hguard := h.guards _ _ _ _ rfl rfl
      { conditionName := "merging", expression := "reduction_type == merge", required := true }
    exact absurd hguard (by decide +kernel)

end OmnibaseCore.Reducer
