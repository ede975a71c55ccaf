import OmnibaseCore.Receipts.Contract
import OmnibaseCore.Receipts.EvidenceSource

/-!
# Receipts

`ModelDodReceipt` and `ModelReceiptSupersession`: what their validators make of the fields that
have been read.
-/

namespace OmnibaseCore.Receipts

open Regex

inductive EnumReceiptStatus
  | pass
  | fail
  | advisory
  | pending
deriving DecidableEq

def EnumReceiptStatus.value : EnumReceiptStatus → String
  | .pass => "PASS"
  | .fail => "FAIL"
  | .advisory => "ADVISORY"
  | .pending => "PENDING"

inductive EnumEvidenceClass
  | uiDashboard
  | backend
  | unclassified
  | runtimeOps
deriving DecidableEq

inductive EnumDiffAttestation
  | netNewOnly
  | receiptsUnmodified
  | contractUnmodified
deriving DecidableEq

structure ModelDodReceipt where
  schemaVersion : String
  ticketId : String
  evidenceItemId : String
  checkType : String
  checkValue : String
  status : EnumReceiptStatus
  commitSha : String
  runner : String
  verifier : String
  probeCommand : String
  probeStdout : String
  actualOutput : Option String := none
  prNumber : Option ℤ := none
  contractSha256 : Option String := none
  contractEntrySha256 : Option String := none
  branch : Option String := none
  workingDir : Option String := none
  evidenceClass : Option EnumEvidenceClass := none
  mutationCommand : Option String := none
  mutationVerb : Option String := none
  targetIdentity : Option String := none
  noSourceChange : Bool := false
  preventionFollowup : Option String := none
  diffAttestations : List EnumDiffAttestation := []
deriving DecidableEq

structure ModelReceiptSupersession (Replacement : Type) where
  schemaVersion : String
  ticketId : String
  evidenceItemId : String
  checkType : String
  reason : String
  superseder : String
  tombstone : Bool
  replacement : Option Replacement

structure ModelRuntimeShaMatchOutput where
  deployedSha : String
  mergeSha : String
  isMatch : Bool

/-- What the gates over receipts take from the interpreter, and from the models' field types. -/
structure ReceiptInterpreter extends GateInterpreter, BodyInterpreter where
  /-- `hashlib.sha256(data).hexdigest()` of the bytes of a file -/
  sha256Bytes : List UInt8 → String
  strValue : Value → String
  reprValue : Value → String
  /-- The fields of a receipt by their types, lengths and defaults, if all can be read and there
  are no others -/
  receiptFields : Value → Option ModelDodReceipt
  /-- The same for a supersession, with a replacement as it stands -/
  supersessionFields : Value → Option (ModelReceiptSupersession Value)
  /-- `str` of the `ValidationError` of a model for an object -/
  modelError : String → Value → String
  /-- `load_runtime_ops_verb_allowlist()` -/
  runtimeOpsVerbs : List String
  /-- `ModelRuntimeShaMatchOutput.model_validate(json.loads(s))`, or the text of the error -/
  shaMatchOutput : String → Except String ModelRuntimeShaMatchOutput

/-! ## Fields of receipts -/

def executableCheckTypes : List String :=
  ["command", "test_passes", "endpoint", "grep", "runtime_readback"]

def weakProofCheckTypes : List String := ["file_exists"]

/-- `_TICKET_ID_RE`. -/
def ticketIdPattern (i : TextInterpreter) : Regex :=
  seq start (seq (text "OMN-") (seq (plus (chars i.isDecimal)) finish))

def isLowerHex (c : Char) : Bool := c.isDigit || ('a' ≤ c && c ≤ 'f')

/-- The inside of `_SHA256_RE`. -/
def sha256Pattern : Regex := seq (opt (text "sha256:")) (times (chars isLowerHex) 64)

section
variable (i : ReceiptInterpreter)

def isBlank (value : Option String) : Bool := strip (value.getD "") = ""

def normalizeIdentity (v : String) : Option String :=
  if strip v = "" then none else some (strip v)

def validateCommitSha (v : String) : Option String :=
  if 7 ≤ v.length ∧ v.length ≤ 40 ∧ v.toList.all isLowerHex then some v else none

def validateContractSha256 : Option String → Option (Option String)
  | none => some none
  | some v =>
    let normalized := i.lower (strip v)
    if (sha256Pattern.fullmatch normalized).isNone then none
    else if startsWith "sha256:" normalized then some (some normalized)
    else some (some ("sha256:" ++ normalized))

def validateMutationVerb : Option String → Option (Option String)
  | none => some none
  | some v => if strip v ∈ i.runtimeOpsVerbs then some (some (strip v)) else none

def ModelDodReceipt.fieldsValid (r : ModelDodReceipt) : Bool :=
  (r.branch.all fun v => strip v ≠ "") && (r.workingDir.all (startsWith "/")) &&
    (ticketIdPattern i.toTextInterpreter).accepts r.ticketId &&
    (SemVer.semverPattern i.toTextInterpreter).accepts r.schemaVersion

/-- The fields behind their validators. -/
def ModelDodReceipt.validateFields (r : ModelDodReceipt) : Option ModelDodReceipt :=
  if !r.fieldsValid i then none
  else do
    let runner ← normalizeIdentity r.runner
    let verifier ← normalizeIdentity r.verifier
    let commitSha ← validateCommitSha r.commitSha
    let contractSha256 ← validateContractSha256 i r.contractSha256
    let contractEntrySha256 ← validateContractSha256 i r.contractEntrySha256
    let mutationVerb ← validateMutationVerb i r.mutationVerb
    return {
      r with
      runner := runner
      verifier := verifier
      commitSha := commitSha
      contractSha256 := contractSha256
      contractEntrySha256 := contractEntrySha256
      mutationVerb := mutationVerb }

/-- The invariants of `RUNTIME_OPS`. -/
def ModelDodReceipt.runtimeOpsComplete (r : ModelDodReceipt) : Bool :=
  r.noSourceChange && r.prNumber.isNone && !isBlank r.mutationVerb && !isBlank r.mutationCommand &&
    !isBlank r.targetIdentity && !isBlank r.preventionFollowup

/-- `PASS` becomes `ADVISORY` under a condition. -/
def ModelDodReceipt.downgrade (r : ModelDodReceipt) (weak : Bool) : ModelDodReceipt :=
  if weak && r.status = .pass then { r with status := .advisory } else r

def ModelDodReceipt.enforceAdversarialInvariants (r : ModelDodReceipt) : Option ModelDodReceipt :=
  if r.evidenceClass = some .runtimeOps ∧ !r.runtimeOpsComplete then none
  else if r.status ≠ .pending ∧ r.checkType ∈ executableCheckTypes ∧ strip r.probeStdout = "" then
    none
  else
    -- Rule 1, then Rule 2
    let r := r.downgrade (r.verifier = r.runner)
    some (r.downgrade (r.checkType ∈ weakProofCheckTypes))

def ModelDodReceipt.modelValidate (raw : Value) : Except PyException ModelDodReceipt :=
  let receipt := do
    let fields ← i.receiptFields raw
    let fields ← ModelDodReceipt.validateFields i fields
    ModelDodReceipt.enforceAdversarialInvariants fields
  match receipt with
  | some receipt => .ok receipt
  | none => .error (.validationError (i.modelError "ModelDodReceipt" raw))

/-! ## Supersessions -/

def ModelReceiptSupersession.fieldsValid {Replacement : Type}
    (r : ModelReceiptSupersession Replacement) : Bool :=
  (ticketIdPattern i.toTextInterpreter).accepts r.ticketId &&
    (SemVer.semverPattern i.toTextInterpreter).accepts r.schemaVersion &&
    strip r.superseder ≠ "" && strip r.reason ≠ ""

/-- `_enforce_replacement_invariant`. -/
def ModelReceiptSupersession.replacementValid
    (r : ModelReceiptSupersession ModelDodReceipt) : Bool :=
  if r.tombstone then r.replacement.isNone
  else
    match r.replacement with
    | none => false
    | some replacement =>
      r.ticketId = replacement.ticketId && r.evidenceItemId = replacement.evidenceItemId &&
        r.checkType = replacement.checkType && replacement.contractEntrySha256.isSome

def ModelReceiptSupersession.readReplacement (r : ModelReceiptSupersession Value) :
    Option (ModelReceiptSupersession ModelDodReceipt) :=
  match r.replacement with
  | none => some { r with replacement := none }
  | some raw =>
    match ModelDodReceipt.modelValidate i raw with
    | .ok receipt => some { r with replacement := some receipt }
    | .error _ => none

def ModelReceiptSupersession.modelValidate (raw : Value) :
    Except PyException (ModelReceiptSupersession ModelDodReceipt) :=
  let record := do
    let fields ← i.supersessionFields raw
    let record ← ModelReceiptSupersession.readReplacement i fields
    if record.fieldsValid i && record.replacementValid then some record else none
  match record with
  | some record => .ok record
  | none => .error (.validationError (i.modelError "ModelReceiptSupersession" raw))

/-! ## What is accepted -/

variable {i}

/-- The replacement in a record has the key of the record, and is bound to its entry. -/
theorem supersession_spec {raw : Value} {record : ModelReceiptSupersession ModelDodReceipt}
    (h : ModelReceiptSupersession.modelValidate i raw = .ok record) {receipt : ModelDodReceipt}
    (htombstone : record.tombstone = false) (hreceipt : record.replacement = some receipt) :
    receipt.ticketId = record.ticketId ∧ receipt.evidenceItemId = record.evidenceItemId ∧
      receipt.checkType = record.checkType ∧ receipt.contractEntrySha256.isSome := by
  have hvalid : record.replacementValid = true := by
    unfold ModelReceiptSupersession.modelValidate at h
    dsimp only at h
    split at h
    · rename_i record' hrecord
      obtain ⟨fields, -, hrecord⟩ := Option.bind_eq_some_iff.mp hrecord
      obtain ⟨read, -, hrecord⟩ := Option.bind_eq_some_iff.mp hrecord
      split_ifs at hrecord with hboth
      rw [← Except.ok.inj h, ← Option.some.inj hrecord]
      exact (Bool.and_eq_true_iff.mp hboth).2
    · exact nomatch h
  unfold ModelReceiptSupersession.replacementValid at hvalid
  rw [htombstone, hreceipt] at hvalid
  simp only [Bool.false_eq_true, if_false, Bool.and_eq_true, decide_eq_true_eq] at hvalid
  obtain ⟨⟨⟨hticket, hitem⟩, htype⟩, hentry⟩ := hvalid
  exact ⟨hticket.symm, hitem.symm, htype.symm, hentry⟩

end

end OmnibaseCore.Receipts
