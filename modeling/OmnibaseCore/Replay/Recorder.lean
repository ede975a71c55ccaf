import OmnibaseCore.Json.Unambiguous

/-!
# Recording and replaying effects

`ServiceEffectRecorder`: effects are recorded with what was requested and what happened; in
replay mode a record is looked up by the type of the effect and the canonical text of the
request.
-/

namespace OmnibaseCore.Replay

/-- `dict[str, JsonType]`. -/
abbrev JsonDict := List (String × Json JsonPrimitive)

inductive EnumRecorderMode
  | passThrough
  | recording
  | replaying
deriving DecidableEq

/-- `ModelEffectRecord`. Instants are in microseconds. -/
structure ModelEffectRecord where
  recordId : UUID
  effectType : String
  intent : JsonDict
  result : JsonDict
  capturedAt : ℤ
  sequenceIndex : ℕ
  success : Bool := true
  errorMessage : Option String := none

def intentKey (floatRepr : ℚ → String) (intent : JsonDict) : Except PyException String :=
  Json.dumps (JsonPrimitive.text floatRepr) .compact (.dict intent)

/-- One turn of `_build_replay_index`: a record whose key is in the index is passed over. -/
def addToIndex (lookup : List ((String × String) × ModelEffectRecord)) (key : String × String)
    (record : ModelEffectRecord) : List ((String × String) × ModelEffectRecord) :=
  if key ∈ lookup.map Prod.fst then lookup else lookup ++ [(key, record)]

def buildReplayIndex (floatRepr : ℚ → String) (records : List ModelEffectRecord) :
    Except PyException (List ((String × String) × ModelEffectRecord)) :=
  records.foldlM (fun lookup record => do
    let key := (record.effectType, ← intentKey floatRepr record.intent)
    return addToIndex lookup key record) []

structure ServiceEffectRecorder where
  mode : EnumRecorderMode
  records : List ModelEffectRecord
  sequenceCounter : ℕ
  replayLookup : List ((String × String) × ModelEffectRecord)

namespace ServiceEffectRecorder

def init (floatRepr : ℚ → String) (mode : EnumRecorderMode) (records : List ModelEffectRecord) :
    Except PyException ServiceEffectRecorder := do
  let replayLookup ←
    if mode = .replaying then buildReplayIndex floatRepr records else pure []
  return { mode, records, sequenceCounter := 0, replayLookup }

/-- `record`, with the identifier and the time that the record gets. -/
def record (recorder : ServiceEffectRecorder) (recordId : UUID) (now : ℤ) (effectType : String)
    (intent result : JsonDict) (success : Bool := true) (errorMessage : Option String := none) :
    ModelEffectRecord × ServiceEffectRecorder :=
  let record : ModelEffectRecord :=
    { recordId, effectType, intent, result
      capturedAt := now
      sequenceIndex := recorder.sequenceCounter
      success, errorMessage }
  if recorder.mode = .recording then
    (record, { recorder with
      records := recorder.records ++ [record]
      sequenceCounter := recorder.sequenceCounter + 1 })
  else
    (record, recorder)

def getAllRecords (recorder : ServiceEffectRecorder) : List ModelEffectRecord := recorder.records

def validateEffectType (effectType : String) : Except PyException Unit :=
  if effectType = "" ∨ strip effectType = "" then
    .error (.modelOnexError
      { errorCode := .replayInvalidEffectType
        message := "effect_type must not be empty"
        context := [("effect_type", .str effectType)] })
  else .ok ()

def getReplayResult (floatRepr : ℚ → String) (recorder : ServiceEffectRecorder)
    (effectType : String) (intent : JsonDict) : Except PyException (Option JsonDict) := do
  validateEffectType effectType
  if recorder.mode ≠ .replaying then
    return none
  let key := (effectType, ← intentKey floatRepr intent)
  return (recorder.replayLookup.lookup key).map fun record => record.result

end ServiceEffectRecorder

/-!
## Replaying what was recorded

The index keeps the first record of each key, so every effect with a key replays as the first
one with that key did.

* `lookup_buildReplayIndex`: what the index finds is the first record with the key.
* `intentKey_eq_iff`: two requests have the same key if and only if they are the same up to the
  order of their entries.
* `replaysSame_iff`: replaying gives back the recorded results exactly if all requests can be
  written as JSON, and equal requests for effects of one type have had the same result.
-/

/-! ## Runs -/

/-- A call of `record`, with the identifier and the time that the record gets. -/
structure EffectCall where
  effectType : String
  intent : JsonDict
  result : JsonDict
  success : Bool := true
  errorMessage : Option String := none
  recordId : UUID
  now : ℤ

def recordAll (recorder : ServiceEffectRecorder) (calls : List EffectCall) :
    ServiceEffectRecorder :=
  calls.foldl (fun recorder c =>
    (recorder.record c.recordId c.now c.effectType c.intent c.result c.success
      c.errorMessage).2) recorder

/-- A run is recorded, and a recorder made from the records gives the recorded results for the
same requests. -/
def ReplaysSame (floatRepr : ℚ → String) (calls : List EffectCall) : Prop :=
  ∃ recorder replay : ServiceEffectRecorder,
    ServiceEffectRecorder.init floatRepr .recording [] = .ok recorder ∧
    ServiceEffectRecorder.init floatRepr .replaying (recordAll recorder calls).getAllRecords
      = .ok replay ∧
    calls.mapM (fun c => replay.getReplayResult floatRepr c.effectType c.intent)
      = .ok (calls.map fun c => some c.result)

def EffectCall.recorded (c : EffectCall) (sequenceIndex : ℕ) : ModelEffectRecord :=
  { recordId := c.recordId
    effectType := c.effectType
    intent := c.intent
    result := c.result
    capturedAt := c.now
    sequenceIndex
    success := c.success
    errorMessage := c.errorMessage }

theorem records_recordAll {recorder : ServiceEffectRecorder} (hmode : recorder.mode = .recording)
    (calls : List EffectCall) :
    (recordAll recorder calls).records
      = recorder.records ++ calls.mapIdx fun k c => c.recorded (recorder.sequenceCounter + k) := by
  induction calls generalizing recorder with
  | nil => exact (List.append_nil _).symm
  | cons c calls ih =>
    have hstep : (recorder.record c.recordId c.now c.effectType c.intent c.result c.success
        c.errorMessage).2 = { recorder with
          records := recorder.records ++ [c.recorded recorder.sequenceCounter]
          sequenceCounter := recorder.sequenceCounter + 1 } := by
      unfold ServiceEffectRecorder.record
      dsimp only
      rw [if_pos hmode]
      rfl
    rw [recordAll, List.foldl_cons, hstep]
    refine (ih ?_).trans ?_
    · exact hmode
    · rw [List.mapIdx_cons, List.append_assoc, List.singleton_append]
      simp only [Nat.add_zero, Nat.add_assoc, Nat.add_comm 1]

/-! ## Keys -/

/-- A request that can be written as JSON. -/
def Writable (intent : JsonDict) : Prop := Json.All JsonPrimitive.Serializable (.dict intent)

/-- Two requests are the same up to the order of their entries. -/
def SameIntent (intent intent' : JsonDict) : Prop :=
  Json.sortKeys (.dict intent) = Json.sortKeys (.dict intent')

section
variable {floatRepr : ℚ → String}

theorem exists_intentKey_iff {intent : JsonDict} :
    (∃ key, intentKey floatRepr intent = .ok key) ↔ Writable intent := by
  unfold intentKey Writable
  rw [Json.exists_dumps_iff]
  simp only [JsonPrimitive.exists_text_iff]

theorem intentKey_eq_iff (hfloat : FloatDigits floatRepr) {intent intent' : JsonDict}
    {key key' : String} (h : intentKey floatRepr intent = .ok key)
    (h' : intentKey floatRepr intent' = .ok key') : key = key' ↔ SameIntent intent intent' :=
  Json.dumps_eq_iff (jsonText_leafCode hfloat) h h'

/-! ## The index -/

theorem exists_buildReplayIndex_iff {records : List ModelEffectRecord} :
    (∃ lookup, buildReplayIndex floatRepr records = .ok lookup) ↔
      ∀ r ∈ records, Writable r.intent := by
  refine exists_foldlM_iff fun lookup r => ?_
  rw [← @exists_intentKey_iff floatRepr]
  constructor
  · intro ⟨lookup', hturn⟩
    obtain ⟨key, hkey, -⟩ := bind_eq_ok hturn
    exact ⟨key, hkey⟩
  · intro ⟨key, hkey⟩
    rw [hkey]
    exact ⟨_, rfl⟩

theorem lookup_addToIndex (lookup : List ((String × String) × ModelEffectRecord))
    (key k : String × String) (record : ModelEffectRecord) :
    (addToIndex lookup key record).lookup k
      = (lookup.lookup k).or (if key = k then some record else none) := by
  unfold addToIndex
  by_cases hmem : key ∈ lookup.map Prod.fst
  · rw [if_pos hmem]
    by_cases hkey : key = k
    · have hfound : lookup.lookup k ≠ none := by
        obtain ⟨e, he, hfst⟩ := List.mem_map.mp hmem
        intro hnone
        have hne := List.lookup_eq_none_iff.mp hnone e he
        simp [hfst, hkey] at hne
      obtain ⟨found, hfound⟩ := Option.ne_none_iff_exists'.mp hfound
      rw [hfound, Option.some_or]
    · rw [if_neg hkey, Option.or_none]
  · rw [if_neg hmem, List.lookup_append]
    by_cases hkey : key = k
    · rw [if_pos hkey, hkey, List.lookup_cons_self]
    · have hne : (k == key) = false := beq_eq_false_iff_ne.mpr (Ne.symm hkey)
      rw [if_neg hkey, List.lookup_cons, hne, List.lookup_nil]

/-- The index has the first record with a key. -/
theorem lookup_buildReplayIndex {records : List ModelEffectRecord}
    {text : ModelEffectRecord → String}
    (htext : ∀ r ∈ records, intentKey floatRepr r.intent = .ok (text r))
    {lookup : List ((String × String) × ModelEffectRecord)}
    (h : buildReplayIndex floatRepr records = .ok lookup) (key : String × String) :
    lookup.lookup key = records.find? fun r => (r.effectType, text r) = key := by
  have hloop : ∀ (l : List ModelEffectRecord)
      (acc lookup : List ((String × String) × ModelEffectRecord)),
      (∀ r ∈ l, intentKey floatRepr r.intent = .ok (text r)) →
      l.foldlM (fun lookup record => do
        let key := (record.effectType, ← intentKey floatRepr record.intent)
        return addToIndex lookup key record) acc = .ok lookup →
      lookup.lookup key = (acc.lookup key).or (l.find? fun r => (r.effectType, text r) = key) := by
    intro l
    induction l with
    | nil =>
      intro acc lookup _ h
      obtain rfl := Except.ok.inj h
      rw [List.find?_nil, Option.or_none]
    | cons r l ih =>
      intro acc lookup hl h
      rw [List.forall_mem_cons] at hl
      rw [List.foldlM_cons, hl.1] at h
      rw [ih _ lookup hl.2 h, lookup_addToIndex, Option.or_assoc, List.find?_cons]
      by_cases hkey : (r.effectType, text r) = key
      · rw [if_pos hkey, Option.some_or]
        simp [hkey]
      · rw [if_neg hkey, Option.none_or]
        simp [hkey]
  exact hloop records [] lookup htext h

/-! ## Replaying -/

theorem getReplayResult_eq {replay : ServiceEffectRecorder} (hmode : replay.mode = .replaying)
    {effectType : String} (hblank : strip effectType ≠ "") {intent : JsonDict} {key : String}
    (hkey : intentKey floatRepr intent = .ok key) :
    replay.getReplayResult floatRepr effectType intent
      = .ok ((replay.replayLookup.lookup (effectType, key)).map fun record => record.result) := by
  have hempty : effectType ≠ "" := by
    intro h
    rw [h] at hblank
    exact hblank (by decide)
  have hvalid : ServiceEffectRecorder.validateEffectType effectType = .ok () := by
    unfold ServiceEffectRecorder.validateEffectType
    rw [if_neg (not_or.mpr ⟨hempty, hblank⟩)]
  unfold ServiceEffectRecorder.getReplayResult
  rw [hvalid, hkey, if_neg (not_not.mpr hmode)]
  rfl

theorem mapM_eq_ok_map_iff {ε α β : Type} {f : α → Except ε β} {g : α → β} {l : List α} :
    l.mapM f = .ok (l.map g) ↔ ∀ a ∈ l, f a = .ok (g a) := by
  refine ⟨fun h => ?_, mapM_eq_ok_map⟩
  induction l with
  | nil => exact fun a ha => absurd ha List.not_mem_nil
  | cons a l ih =>
    rw [List.mapM_cons] at h
    obtain ⟨b, hb, h⟩ := bind_eq_ok h
    obtain ⟨bs, hbs, h⟩ := bind_eq_ok h
    obtain ⟨rfl, rfl⟩ := List.cons.inj (Except.ok.inj h)
    exact List.forall_mem_cons.mpr ⟨hb, ih hbs⟩

/-- Replaying gives back what was recorded if and only if every request can be written as JSON
and the result of an effect depends on its type and its request only. -/
theorem replaysSame_iff (hfloat : FloatDigits floatRepr) {calls : List EffectCall}
    (hblank : ∀ c ∈ calls, strip c.effectType ≠ "") :
    ReplaysSame floatRepr calls ↔
      (∀ c ∈ calls, Writable c.intent) ∧
        ∀ c ∈ calls, ∀ c' ∈ calls, c.effectType = c'.effectType →
          SameIntent c.intent c'.intent → c.result = c'.result := by
  let recorder : ServiceEffectRecorder :=
    { mode := .recording, records := [], sequenceCounter := 0, replayLookup := [] }
  have hrecords : (recordAll recorder calls).getAllRecords
      = calls.mapIdx fun k c => c.recorded (0 + k) := records_recordAll rfl calls
  have hrecord : ∀ c ∈ calls, ∃ r ∈ (recordAll recorder calls).getAllRecords,
      r.effectType = c.effectType ∧ r.intent = c.intent := by
    intro c hc
    obtain ⟨k, hk, hget⟩ := List.getElem_of_mem hc
    rw [hrecords]
    exact ⟨_, List.mem_mapIdx.mpr ⟨k, hk, rfl⟩, congrArg EffectCall.effectType hget,
      congrArg EffectCall.intent hget⟩
  have hcall : ∀ r ∈ (recordAll recorder calls).getAllRecords, ∃ c ∈ calls,
      c.effectType = r.effectType ∧ c.intent = r.intent ∧ c.result = r.result := by
    intro r hr
    rw [hrecords] at hr
    obtain ⟨k, hk, rfl⟩ := List.mem_mapIdx.mp hr
    exact ⟨_, List.getElem_mem hk, rfl, rfl, rfl⟩
  choose! text htext using fun (intent : JsonDict) (h : Writable intent) =>
    (@exists_intentKey_iff floatRepr intent).mpr h
  -- a recorder made from the records finds the first one with the key
  have hfind : ∀ {lookup}, buildReplayIndex floatRepr (recordAll recorder calls).getAllRecords
      = .ok lookup → ∀ key : String × String, lookup.lookup key =
        (recordAll recorder calls).getAllRecords.find? fun r =>
          (r.effectType, text r.intent) = key := by
    intro lookup hlookup
    have hwritable := exists_buildReplayIndex_iff.mp ⟨lookup, hlookup⟩
    exact lookup_buildReplayIndex (fun r hr => htext r.intent (hwritable r hr)) hlookup
  constructor
  · intro ⟨recorder', replay, hinit, hreplay, hrun⟩
    obtain rfl : recorder = recorder' := Except.ok.inj hinit
    obtain ⟨lookup, hlookup, hreplay⟩ := bind_eq_ok hreplay
    obtain rfl := Except.ok.inj hreplay
    have hwritable : ∀ c ∈ calls, Writable c.intent := by
      intro c hc
      obtain ⟨r, hr, -, hintent⟩ := hrecord c hc
      rw [← hintent]
      exact exists_buildReplayIndex_iff.mp ⟨lookup, hlookup⟩ r hr
    rw [mapM_eq_ok_map_iff] at hrun
    have hresult : ∀ c ∈ calls,
        (lookup.lookup (c.effectType, text c.intent)).map (fun record => record.result)
          = some c.result := by
      intro c hc
      have hc' := hrun c hc
      rw [getReplayResult_eq rfl (hblank c hc) (htext c.intent (hwritable c hc))] at hc'
      exact Except.ok.inj hc'
    refine ⟨hwritable, fun c hc c' hc' heffect hintent => ?_⟩
    have hkey : text c.intent = text c'.intent :=
      (intentKey_eq_iff hfloat (htext _ (hwritable c hc)) (htext _ (hwritable c' hc'))).mpr hintent
    have hboth := hresult c hc
    rw [heffect, hkey, hresult c' hc'] at hboth
    exact (Option.some.inj hboth).symm
  · intro ⟨hwritable, hsame⟩
    have hrecordsWritable : ∀ r ∈ (recordAll recorder calls).getAllRecords, Writable r.intent := by
      intro r hr
      obtain ⟨c, hc, -, hintent, -⟩ := hcall r hr
      rw [← hintent]
      exact hwritable c hc
    obtain ⟨lookup, hlookup⟩ := exists_buildReplayIndex_iff.mpr hrecordsWritable
    refine ⟨recorder, ⟨.replaying, (recordAll recorder calls).getAllRecords, 0, lookup⟩, rfl, ?_, ?_⟩
    · unfold ServiceEffectRecorder.init
      rw [if_pos rfl, hlookup]
      rfl
    · rw [mapM_eq_ok_map_iff]
      intro c hc
      rw [getReplayResult_eq rfl (hblank c hc) (htext c.intent (hwritable c hc))]
      obtain ⟨r, hr, heffect, hintent⟩ := hrecord c hc
      cases hfirst : lookup.lookup (c.effectType, text c.intent) with
      | none =>
        rw [hfind hlookup, List.find?_eq_none] at hfirst
        exact absurd (hfirst r hr) (by simp [heffect, hintent])
      | some first =>
        rw [hfind hlookup] at hfirst
        have hkey := List.find?_some hfirst
        rw [decide_eq_true_iff, Prod.mk.injEq] at hkey
        obtain ⟨c', hc', heffect', hintent', hresult'⟩ :=
          hcall first (List.mem_of_find?_eq_some hfirst)
        have hsameIntent : SameIntent c'.intent c.intent := by
          rw [← intentKey_eq_iff hfloat (htext _ (hwritable c' hc')) (htext _ (hwritable c hc)),
            hintent']
          exact hkey.2
        rw [Option.map_some, ← hresult',
          hsame c' hc' c hc (heffect'.trans hkey.1) hsameIntent]

def pollCall (state : String) : EffectCall :=
  { effectType := "job.poll"
    intent := [("id", .prim (.strict (.int 7)))]
    result := [("state", .prim (.strict (.str state)))]
    recordId := ⟨0⟩
    now := 0 }

/-- The answer about another job. -/
def pollOther (state : String) : EffectCall :=
  { pollCall state with intent := [("id", .prim (.strict (.int 8)))] }

/-- Two jobs are asked about, and the first one again while it is pending. -/
theorem replaysSame_iff_poll :
    ReplaysSame (fun q => "." ++ (Encodable.encode q).repr)
      [pollCall "pending", pollOther "done", pollCall "pending"] := by
  have hother : ¬ SameIntent (pollCall "pending").intent (pollOther "done").intent := by
    unfold SameIntent
    decide
  have hcall : ∀ c ∈ [pollCall "pending", pollOther "done", pollCall "pending"],
      c = pollCall "pending" ∨ c = pollOther "done" := by simp
  refine (replaysSame_iff floatDigits_encode (by decide)).mpr ⟨?_, ?_⟩
  · have hdigits : (Nat.repr 7).length ≤ SemVer.intMaxStrDigits ∧
        (Nat.repr 8).length ≤ SemVer.intMaxStrDigits := by decide
    simp [Writable, pollCall, pollOther, JsonPrimitive.Serializable, hdigits]
  · intro c hc c' hc' _ hintent
    rcases hcall c hc with rfl | rfl <;> rcases hcall c' hc' with rfl | rfl
    · rfl
    · exact absurd hintent hother
    · exact absurd hintent.symm hother
    · rfl

/-- The second answer of the job is replayed as the first one. -/
theorem pollCall_not_replaysSame :
    ¬ ReplaysSame (fun q => "." ++ (Encodable.encode q).repr)
      [pollCall "pending", pollCall "done"] := by
  intro ⟨recorder, replay, hinit, hreplay, hrun⟩
  obtain rfl := Except.ok.inj hinit
  obtain rfl := Except.ok.inj hreplay
  rw [mapM_eq_ok_map_iff] at hrun
  have hdone := hrun (pollCall "done") (by simp)
  have hpending : ∀ x, x = some (pollCall "done").result → x ≠ some (pollCall "pending").result := by
    intro x hx
    rw [hx]
    simp [pollCall]
  exact hpending _ (Except.ok.inj hdone) rfl

end

end OmnibaseCore.Replay
