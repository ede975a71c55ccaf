import OmnibaseCore.Python.Path
import OmnibaseCore.Receipts.Receipt

/-!
# Supersession

The files of a key `(ticket, evidence item, check type)`: a base file, and records that supersede
it. `resolve_supersession` goes by the record with the highest number.
-/

namespace OmnibaseCore.Receipts

open Regex

/-- Why a file cannot be loaded: `OSError` and `yaml.YAMLError`, which the gates expect, or
something else. -/
inductive LoadError
  | unreadable (e : PyException)
  | raised (e : PyException)

structure ReceiptFiles where
  /-- `path.exists()` -/
  exists_ : String → Bool
  /-- `path.is_file()` -/
  isFile : String → Bool
  /-- `path.is_dir()` -/
  isDir : String → Bool
  /-- `path.read_bytes()` -/
  readBytes : String → Except LoadError (List UInt8)
  /-- `yaml.safe_load` of the open file -/
  loadYaml : String → Except LoadError Value
  /-- `path.glob(pattern)` -/
  glob : String → String → Except PyException (List String)
  /-- `path.rglob(pattern)` -/
  rglob : String → String → Except PyException (List String)

structure SupersessionResolution where
  receipt : Option ModelDodReceipt
  tombstoned : Bool
  error : Option String
  sourcePath : String

def SupersessionResolution.failed (error sourcePath : String) : SupersessionResolution :=
  { receipt := none, tombstoned := false, error := some error, sourcePath := sourcePath }

structure ReceiptKey where
  ticketId : String
  evidenceItemId : String
  checkType : String
deriving DecidableEq

/-- `({ticket_id}, {evidence_item_id}, {check_type})`. -/
def ReceiptKey.text (key : ReceiptKey) : String :=
  "(" ++ key.ticketId ++ ", " ++ key.evidenceItemId ++ ", " ++ key.checkType ++ ")"

/-- `receipts_dir / ticket_id / evidence_item_id`. -/
def ReceiptKey.dir (key : ReceiptKey) (receiptsDir : String) : String :=
  joinPath (joinPath receiptsDir key.ticketId) key.evidenceItemId

/-- `receipts_dir / ticket_id / evidence_item_id / f"{check_type}.yaml"`. -/
def ReceiptKey.basePath (key : ReceiptKey) (receiptsDir : String) : String :=
  joinPath (key.dir receiptsDir) (key.checkType ++ ".yaml")

def ModelDodReceipt.key (r : ModelDodReceipt) : ReceiptKey :=
  { ticketId := r.ticketId, evidenceItemId := r.evidenceItemId, checkType := r.checkType }

def ModelReceiptSupersession.key {Replacement : Type} (r : ModelReceiptSupersession Replacement) :
    ReceiptKey :=
  { ticketId := r.ticketId, evidenceItemId := r.evidenceItemId, checkType := r.checkType }

/-- `_SUPERSEDE_NNNN_RE`. -/
def supersedeNnnnPattern (i : TextInterpreter) : Regex :=
  seq (text ".supersede.") (seq (group "1" (plus (chars i.isDecimal)))
    (seq (text ".yaml") finish))

section
variable (i : ReceiptInterpreter) (files : ReceiptFiles) (receiptsDir : String)

def recordNumber (candidate : String) : Option ℕ :=
  ((supersedeNnnnPattern i.toTextInterpreter).findall "1" (pathName candidate)).head?.map
    fun digits => SemVer.digitsValue i.toTextInterpreter digits.toList

def keyRecords (key : ReceiptKey) : Except PyException (List (ℕ × String)) :=
  if !files.isDir (key.dir receiptsDir) then .ok []
  else do
    let candidates ← files.glob (key.dir receiptsDir) (key.checkType ++ ".supersede.*.yaml")
    return candidates.filterMap fun candidate =>
      (recordNumber i candidate).map fun n => (n, candidate)

def latestRecord (records : List (ℕ × String)) : Option (ℕ × String) :=
  (sortedAsc Prod.fst records).getLast?

def resolveRecord (key : ReceiptKey) (latestPath : String) :
    Except PyException SupersessionResolution :=
  match files.loadYaml latestPath with
  | .error (.unreadable e) =>
    .ok (.failed ("supersession record " ++ latestPath ++ " is unreadable: " ++ e.str) latestPath)
  | .error (.raised e) => .error e
  | .ok raw =>
    match ModelReceiptSupersession.modelValidate i raw with
    | .error e =>
      .ok (.failed ("supersession record " ++ latestPath ++ " is invalid: " ++ e.str) latestPath)
    | .ok record =>
      if record.key ≠ key then
        .ok (.failed ("supersession record " ++ latestPath ++ " declares key " ++ record.key.text ++
          " but is filed under " ++ key.text) latestPath)
      else if record.tombstone then
        .ok { receipt := none, tombstoned := true, error := none, sourcePath := latestPath }
      else
        .ok { receipt := record.replacement, tombstoned := false, error := none,
              sourcePath := latestPath }

def resolveSupersession (key : ReceiptKey) :
    Except PyException (Option SupersessionResolution) := do
  let numbered ← keyRecords i files receiptsDir key
  match latestRecord numbered with
  | none => return none
  | some (_, latestPath) => return some (← resolveRecord i files key latestPath)

/-! ## The active receipt -/

/-- The receipt that counts for a key: the replacement in its latest record, or the one in the
base file if there are no records. -/
inductive IsActive (key : ReceiptKey) (receipt : ModelDodReceipt) : Prop
  | base {raw : Value} (hrecords : keyRecords i files receiptsDir key = .ok [])
      (hload : files.loadYaml (key.basePath receiptsDir) = .ok raw)
      (hvalid : ModelDodReceipt.modelValidate i raw = .ok receipt)
  | superseded {records : List (ℕ × String)} {n : ℕ} {path : String} {raw : Value}
      {record : ModelReceiptSupersession ModelDodReceipt}
      (hrecords : keyRecords i files receiptsDir key = .ok records)
      (hlatest : latestRecord records = some (n, path))
      (hload : files.loadYaml path = .ok raw)
      (hvalid : ModelReceiptSupersession.modelValidate i raw = .ok record)
      (hkey : record.key = key) (htombstone : record.tombstone = false)
      (hreplacement : record.replacement = some receipt)

variable {i files receiptsDir}

theorem latestRecord_eq_none {records : List (ℕ × String)} (h : latestRecord records = none) :
    records = [] := by
  have hsorted := List.getLast?_eq_none_iff.mp h
  exact (hsorted ▸ perm_sortedAsc Prod.fst records).symm.eq_nil

theorem le_of_latestRecord {records : List (ℕ × String)} {latest : ℕ × String}
    (h : latestRecord records = some latest) :
    latest ∈ records ∧ ∀ record ∈ records, record.1 ≤ latest.1 := by
  obtain ⟨before, hbefore⟩ := List.getLast?_eq_some_iff.mp h
  have hperm := perm_sortedAsc Prod.fst records
  have hpairwise := pairwise_sortedAsc Prod.fst records
  rw [hbefore] at hperm hpairwise
  refine ⟨hperm.mem_iff.mp (by simp), fun record hrecord => ?_⟩
  rcases List.mem_append.mp (hperm.mem_iff.mpr hrecord) with hmem | hmem
  · exact (List.pairwise_append.mp hpairwise).2.2 record hmem latest (List.mem_singleton_self _)
  · rw [List.mem_singleton.mp hmem]

variable {key : ReceiptKey}

variable {resolution : SupersessionResolution}

/-- A record that resolves to a receipt replaces it for its key. -/
theorem resolveRecord_spec {latestPath : String}
    {receipt : ModelDodReceipt} (h : resolveRecord i files key latestPath = .ok resolution)
    (herror : resolution.error = none) (hreceipt : resolution.receipt = some receipt) :
    ∃ raw record, files.loadYaml latestPath = .ok raw ∧
      ModelReceiptSupersession.modelValidate i raw = .ok record ∧ record.key = key ∧
      record.tombstone = false ∧ record.replacement = some receipt := by
  unfold resolveRecord at h
  cases hload : files.loadYaml latestPath with
  | error e =>
    rw [hload] at h
    cases e with
    | raised e => exact nomatch h
    | unreadable e =>
      rw [← Except.ok.inj h] at herror
      exact nomatch herror
  | ok raw =>
    rw [hload] at h
    dsimp only at h
    cases hvalid : ModelReceiptSupersession.modelValidate i raw with
    | error e =>
      rw [hvalid] at h
      rw [← Except.ok.inj h] at herror
      exact nomatch herror
    | ok record =>
      rw [hvalid] at h
      dsimp only at h
      split_ifs at h with hkey htombstone
      · rw [← Except.ok.inj h] at herror
        exact nomatch herror
      · rw [← Except.ok.inj h] at hreceipt
        exact nomatch hreceipt
      · rw [← Except.ok.inj h] at hreceipt
        exact ⟨raw, record, rfl, hvalid, not_not.mp hkey, Bool.eq_false_iff.mpr htombstone,
          hreceipt⟩

theorem resolveSupersession_none (h : resolveSupersession i files receiptsDir key = .ok none) :
    keyRecords i files receiptsDir key = .ok [] := by
  unfold resolveSupersession at h
  obtain ⟨numbered, hnumbered, h⟩ := bind_eq_ok h
  cases hlatest : latestRecord numbered with
  | none => rw [hnumbered, latestRecord_eq_none hlatest]
  | some latest =>
    rw [hlatest] at h
    obtain ⟨resolution, -, h⟩ := bind_eq_ok h
    exact nomatch h

/-- A resolution with a receipt resolves to the active one, which has the key. -/
theorem resolveSupersession_spec {receipt : ModelDodReceipt}
    (h : resolveSupersession i files receiptsDir key = .ok (some resolution))
    (herror : resolution.error = none) (hreceipt : resolution.receipt = some receipt) :
    IsActive i files receiptsDir key receipt ∧ receipt.key = key := by
  unfold resolveSupersession at h
  obtain ⟨numbered, hnumbered, h⟩ := bind_eq_ok h
  cases hlatest : latestRecord numbered with
  | none =>
    rw [hlatest] at h
    exact nomatch h
  | some latest =>
    rw [hlatest] at h
    obtain ⟨resolution', hrecord, h⟩ := bind_eq_ok h
    have hresolution := Option.some.inj (Except.ok.inj h)
    rw [hresolution] at hrecord
    obtain ⟨raw, record, hload, hvalid, hkey, htombstone, hreplacement⟩ :=
      resolveRecord_spec hrecord herror hreceipt
    obtain ⟨hticket, hitem, htype, -⟩ := supersession_spec hvalid htombstone hreplacement
    refine ⟨.superseded hnumbered hlatest hload hvalid hkey htombstone hreplacement, ?_⟩
    rw [← hkey]
    unfold ModelDodReceipt.key ModelReceiptSupersession.key
    rw [hticket, hitem, htype]

/-- At most one receipt counts for a key. -/
theorem IsActive.unique {r r' : ModelDodReceipt} (h : IsActive i files receiptsDir key r)
    (h' : IsActive i files receiptsDir key r') : r = r' := by
  cases h with
  | base hrecords hload hvalid =>
    cases h' with
    | base hrecords' hload' hvalid' =>
      rw [hload, Except.ok.injEq] at hload'
      rw [← hload', hvalid] at hvalid'
      exact Except.ok.inj hvalid'
    | superseded hrecords' hlatest' _ _ _ _ _ =>
      rw [hrecords, Except.ok.injEq] at hrecords'
      rw [← hrecords'] at hlatest'
      exact nomatch hlatest'
  | superseded hrecords hlatest hload hvalid hkey htombstone hreplacement =>
    cases h' with
    | base hrecords' hload' hvalid' =>
      rw [hrecords', Except.ok.injEq] at hrecords
      rw [← hrecords] at hlatest
      exact nomatch hlatest
    | superseded hrecords' hlatest' hload' hvalid' _ _ hreplacement' =>
      rw [hrecords, Except.ok.injEq] at hrecords'
      rw [← hrecords', hlatest, Option.some.injEq, Prod.mk.injEq] at hlatest'
      rw [← hlatest'.2, hload, Except.ok.injEq] at hload'
      rw [← hload', hvalid, Except.ok.injEq] at hvalid'
      rw [← hvalid', hreplacement] at hreplacement'
      exact Option.some.inj hreplacement'

end

end OmnibaseCore.Receipts
