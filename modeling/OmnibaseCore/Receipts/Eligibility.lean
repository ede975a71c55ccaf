import OmnibaseCore.Python.Return
import OmnibaseCore.Receipts.Supersession
import OmnibaseCore.Receipts.Tickets

/-!
# Merge eligibility

`validate_occ_merge_eligibility`: the evidence for every ticket that a pull request cites. What
is missing or stale is collected, and evidence that cannot be judged ends the run.
-/

namespace OmnibaseCore.Receipts

open Regex

/-- `EnumOccEligibilityReason`, as far as the gate gives it. -/
inductive EnumOccEligibilityReason
  | eligible
  | missingTicket
  | missingContract
  | missingReceipt
  | nonpassReceipt
  | contractHashMismatch
  | prTicketMismatch

structure ModelOccEligibilityInput where
  prNumber : ℤ
  prTitle : String := ""
  prBody : String := ""
  prBranch : String := ""
  prCommitShas : List String := []
  prCommitTexts : List String := []
  occCommitSha : String
  contractsDir : String
  receiptsDir : String

structure ModelOccEligibilityResult where
  eligible : Bool
  reason : EnumOccEligibilityReason
  ticketIds : List String := []
  occCommitSha : String := ""
  contractHashes : List (String × String) := []
  receiptIds : List String := []
  missingContracts : List String := []
  missingOrNonpassReceipts : List String := []
  staleReceiptBindings : List String := []
  detail : String := ""

/-! ## Tickets and pull requests -/

/-- `EVIDENCE_TICKET_PATTERN` of this gate. -/
def occEvidenceTicketPattern (i : TextInterpreter) : Guarded :=
  let spaces := star (chars isSpace)
  { before := lineBoundary
    pattern := seq spaces (seq (textIgnoreCase "Evidence-Ticket") (seq spaces (seq (char ':')
      (seq spaces (seq (group "1" (seq (textIgnoreCase "OMN-") (plus (chars i.isDecimal))))
        spaces)))))
    after := lineBoundary }

def ticketTokenPattern (i : TextInterpreter) : Guarded :=
  { before := notLetterOrDigit, pattern := ticketRegex i, after := notLetterOrDigit }

section
variable (i : ReceiptInterpreter)

def ticketBoundToPr (ticketId : String) (snapshot : ModelOccEligibilityInput) : Bool :=
  let searchableTexts := snapshot.prTitle :: snapshot.prBranch :: snapshot.prCommitTexts
  let boundTickets := searchableTexts.flatMap fun text =>
    ((ticketTokenPattern i.toTextInterpreter).findall "1" text).map fun m => i.upper ("OMN-" ++ m)
  let evidenceTickets :=
    ((occEvidenceTicketPattern i.toTextInterpreter).findall "1" snapshot.prBody).map i.upper
  ticketId ∈ boundTickets || ticketId ∈ evidenceTickets

def normalizeShaSet (values : List String) : List String :=
  (values.filter fun v => strip v ≠ "").map fun v => i.lower (strip v)

def receiptBoundToPr (receipt : ModelDodReceipt) (snapshot : ModelOccEligibilityInput) : Bool :=
  receipt.prNumber = some snapshot.prNumber ||
    i.lower receipt.commitSha ∈ normalizeShaSet i snapshot.prCommitShas

def sha256File (files : ReceiptFiles) (path : String) : Except LoadError String :=
  (files.readBytes path).map fun data => "sha256:" ++ i.sha256Bytes data

end

/-! ## What is collected -/

/-- The accumulators of the gate. -/
structure Evidence where
  contractHashes : List (String × String) := []
  receiptIds : List String := []
  missingContracts : List String := []
  missingReceipts : List String := []
  nonpassReceipts : List String := []
  staleBindings : List String := []
  staleBindingDetails : List String := []
  ticketsWithPrBoundReceipt : List String := []

/-- `f"{ticket_id}:{evidence_item_id}:{check_type}"`. -/
def ReceiptKey.receiptId (key : ReceiptKey) : String :=
  key.ticketId ++ ":" ++ key.evidenceItemId ++ ":" ++ key.checkType

section
variable (snapshot : ModelOccEligibilityInput) (ticketIds : List String) (evidence : Evidence)

/-- A refusal with what has been collected so far. -/
def refusal (reason : EnumOccEligibilityReason) (detail : String) : ModelOccEligibilityResult :=
  { eligible := false
    reason := reason
    ticketIds := ticketIds
    occCommitSha := snapshot.occCommitSha
    contractHashes := evidence.contractHashes
    receiptIds := sortedAsc id evidence.receiptIds
    detail := detail }

def staleBindingResult : ModelOccEligibilityResult :=
  let detail := "; ".intercalate evidence.staleBindingDetails
  let detail :=
    if 1 < evidence.staleBindings.length then
      toString evidence.staleBindings.length ++ " receipts have stale contract bindings " ++
        "(repair all of them in one pass): " ++ detail
    else detail
  { refusal snapshot ticketIds evidence .contractHashMismatch detail with
    staleReceiptBindings := sortedAsc id evidence.staleBindings }

def refuse {α : Type} (result : ModelOccEligibilityResult) :
    Except (Exit ModelOccEligibilityResult) α :=
  if evidence.staleBindings ≠ [] then
    Exit.return_ (staleBindingResult snapshot ticketIds evidence)
  else Exit.return_ result

end

/-! ## The gate -/

section
variable (i : ReceiptInterpreter) (files : ReceiptFiles) (snapshot : ModelOccEligibilityInput)
  (ticketIds : List String)

def refuseNonpass {α : Type} (evidence : Evidence) (key : ReceiptKey) (detail : String) :
    Except (Exit ModelOccEligibilityResult) α :=
  let evidence :=
    { evidence with nonpassReceipts := evidence.nonpassReceipts ++ [key.receiptId] }
  refuse snapshot ticketIds evidence
    { refusal snapshot ticketIds evidence .nonpassReceipt detail with
      missingOrNonpassReceipts := sortedAsc id evidence.nonpassReceipts }

def baseReceipt (evidence : Evidence) (key : ReceiptKey) :
    Except (Exit ModelOccEligibilityResult) (Option (ModelDodReceipt × String)) :=
  let receiptPath := key.basePath snapshot.receiptsDir
  if !files.exists_ receiptPath then .ok none
  else
    match files.loadYaml receiptPath with
    | .error (.raised e) => .error (.raised e)
    | .error (.unreadable e) =>
      refuseNonpass snapshot ticketIds evidence key
        ("receipt " ++ receiptPath ++ " is invalid: " ++ e.str)
    | .ok receiptRaw =>
      match ModelDodReceipt.modelValidate i receiptRaw with
      | .error e =>
        refuseNonpass snapshot ticketIds evidence key
          ("receipt " ++ receiptPath ++ " is invalid: " ++ e.str)
      | .ok receipt => .ok (some (receipt, receiptPath))

def receiptOf (evidence : Evidence) (key : ReceiptKey) :
    Except (Exit ModelOccEligibilityResult) (Option (ModelDodReceipt × String)) := do
  let supersession ← Exit.call (resolveSupersession i files snapshot.receiptsDir key)
  match supersession with
  | none => baseReceipt i files snapshot ticketIds evidence key
  | some supersession =>
    match supersession.error with
    | some error => refuseNonpass snapshot ticketIds evidence key error
    | none =>
      match supersession.receipt with
      | none => return none
      | some receipt =>
        if supersession.tombstoned then return none
        else return some (receipt, supersession.sourcePath)

def judgeReceipt (contractData : Value) (contractHash : String) (evidence : Evidence)
    (key : ReceiptKey) (receipt : ModelDodReceipt) (receiptSource : String) :
    Except (Exit ModelOccEligibilityResult) Evidence :=
  if receipt.ticketId ≠ key.ticketId then
    refuse snapshot ticketIds evidence
      (refusal snapshot ticketIds evidence .prTicketMismatch
        ("receipt " ++ receiptSource ++ " declares ticket_id=" ++ receipt.ticketId ++
          ", expected " ++ key.ticketId))
  else
    let isBound := receiptBoundToPr i receipt snapshot
    if receipt.contractSha256 = none ∧ receipt.contractEntrySha256 = none then
      refuse snapshot ticketIds evidence
        (refusal snapshot ticketIds evidence .contractHashMismatch
          ("receipt " ++ receiptSource ++ " missing both contract_sha256 and " ++
            "contract_entry_sha256 (OMN-10421 / OMN-13061 / OMN-13888): receipts produced after " ++
            "2026-04-30 must bind the contract. Rerun probes to produce a new receipt."))
    else do
      let bindingError ← Exit.call (checkReceiptContractBinding i receipt contractData
        key.evidenceItemId contractHash isBound)
      match bindingError with
      | some bindingError =>
        return {
          evidence with
          staleBindings := evidence.staleBindings ++ [key.receiptId]
          staleBindingDetails := evidence.staleBindingDetails ++
            ["receipt " ++ receiptSource ++ ": " ++ bindingError] }
      | none =>
        let evidence :=
          if isBound then
            { evidence with
              ticketsWithPrBoundReceipt := evidence.ticketsWithPrBoundReceipt ++ [key.ticketId] }
          else evidence
        if receipt.status ≠ .pass then
          return { evidence with nonpassReceipts := evidence.nonpassReceipts ++ [key.receiptId] }
        else return { evidence with receiptIds := evidence.receiptIds ++ [key.receiptId] }

def checkKey (contractData : Value) (contractHash ticketId : String) (evidence : Evidence)
    (triple : String × String × String) : Except (Exit ModelOccEligibilityResult) Evidence := do
  let key : ReceiptKey :=
    { ticketId := ticketId, evidenceItemId := triple.1, checkType := triple.2.1 }
  match ← receiptOf i files snapshot ticketIds evidence key with
  | none => return { evidence with missingReceipts := evidence.missingReceipts ++ [key.receiptId] }
  | some (receipt, receiptSource) =>
    judgeReceipt i snapshot ticketIds contractData contractHash evidence key receipt receiptSource

def loadContract (contractPath : String) : Except LoadError (Value × String) := do
  let contractData ← files.loadYaml contractPath
  let contractHash ← sha256File i files contractPath
  return (contractData, contractHash)

def checkTicketEvidence (evidence : Evidence) (ticketId : String) :
    Except (Exit ModelOccEligibilityResult) Evidence :=
  let contractPath := joinPath snapshot.contractsDir (ticketId ++ ".yaml")
  if !files.isFile contractPath then
    .ok { evidence with missingContracts := evidence.missingContracts ++ [ticketId] }
  else
    match loadContract i files contractPath with
    | .error (.raised e) => .error (.raised e)
    | .error (.unreadable e) =>
      let evidence := { evidence with missingContracts := evidence.missingContracts ++ [ticketId] }
      refuse snapshot ticketIds evidence
        { eligible := false
          reason := .missingContract
          ticketIds := ticketIds
          occCommitSha := snapshot.occCommitSha
          contractHashes := evidence.contractHashes
          missingContracts := sortedAsc id evidence.missingContracts
          detail := "contract " ++ contractPath ++ " is unreadable: " ++ e.str }
    | .ok (contractData, contractHash) =>
      let evidence :=
        { evidence with contractHashes := dictSet evidence.contractHashes ticketId contractHash }
      let triples := iterDodEvidence contractData
      if triples = [] then
        .ok { evidence with missingReceipts := evidence.missingReceipts ++ [ticketId ++ ":*:*"] }
      else
        triples.foldlM (checkKey i files snapshot ticketIds contractData contractHash ticketId)
          evidence

def verdict (evidence : Evidence) : ModelOccEligibilityResult :=
  if evidence.staleBindings ≠ [] then staleBindingResult snapshot ticketIds evidence
  else if evidence.missingContracts ≠ [] then
    { refusal snapshot ticketIds evidence .missingContract
        "one or more ticket contracts are missing from pinned OCC evidence" with
      missingContracts := sortedAsc id evidence.missingContracts }
  else if evidence.missingReceipts ≠ [] ∨ evidence.nonpassReceipts ≠ [] then
    let reason :=
      if evidence.missingReceipts ≠ [] then EnumOccEligibilityReason.missingReceipt
      else .nonpassReceipt
    { refusal snapshot ticketIds evidence reason "one or more receipts are missing or non-PASS" with
      missingOrNonpassReceipts :=
        sortedAsc id (evidence.missingReceipts ++ evidence.nonpassReceipts) }
  else
    let unboundTickets := ticketIds.filter fun ticketId =>
      ticketId ∉ evidence.ticketsWithPrBoundReceipt
    if unboundTickets ≠ [] then
      refusal snapshot ticketIds evidence .prTicketMismatch
        ("no PASS receipt for one or more tickets binds to PR #" ++ toString snapshot.prNumber ++
          " or one of its commit SHAs: " ++ ", ".intercalate unboundTickets)
    else
      { eligible := true
        reason := .eligible
        ticketIds := ticketIds
        occCommitSha := snapshot.occCommitSha
        contractHashes := evidence.contractHashes
        receiptIds := sortedAsc id evidence.receiptIds
        detail := "OCC evidence is present, PASS, hash-bound, and PR-bound" }

def eligibilityBody : Except (Exit ModelOccEligibilityResult) ModelOccEligibilityResult :=
  match ticketIds.find? fun ticketId => !ticketBoundToPr i ticketId snapshot with
  | some ticketId =>
    .ok {
      eligible := false
      reason := .prTicketMismatch
      ticketIds := ticketIds
      occCommitSha := snapshot.occCommitSha
      detail := ticketId ++ " is cited but not bound through PR title, branch, commit text, or " ++
        "Evidence-Ticket metadata" }
  | none => do
    let evidence ← ticketIds.foldlM (checkTicketEvidence i files snapshot ticketIds) {}
    return verdict snapshot ticketIds evidence

def validateOccMergeEligibility : Except PyException ModelOccEligibilityResult :=
  let ticketIds := extractTicketIds i snapshot.prBody (some snapshot.prTitle)
  if ticketIds = [] then
    .ok {
      eligible := false
      reason := .missingTicket
      occCommitSha := snapshot.occCommitSha
      detail := "PR title/body does not cite an OMN ticket" }
  else Exit.run (eligibilityBody i files snapshot ticketIds)

end

end OmnibaseCore.Receipts
