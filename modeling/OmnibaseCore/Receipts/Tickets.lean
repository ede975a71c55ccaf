import OmnibaseCore.Receipts.Receipt
import OmnibaseCore.Regex.Keyword

/-!
# Tickets and their checks

What both gates read: the tickets that a pull request cites, the checks of a contract, and how a
receipt is bound to a contract.

`checkReceiptContractBinding_spec` says what a binding without an error means.
-/

namespace OmnibaseCore.Receipts

open Regex

/-! ## Patterns -/

/-- `OMN-(\d+)` with `re.IGNORECASE`. -/
def ticketRegex (i : TextInterpreter) : Regex :=
  seq (textIgnoreCase "OMN-") (group "1" (plus (chars i.isDecimal)))

def ticketPattern (i : TextInterpreter) : Guarded :=
  { before := wordBoundary i, pattern := ticketRegex i, after := wordBoundary i }

/-- `CLOSING_KEYWORD_PATTERN`. The keyword ends at its separator in any case. -/
def closingKeywordPattern (i : TextInterpreter) : Guarded :=
  { before := wordBoundary i
    pattern :=
      seq (alt (textIgnoreCase "Closes") (alt (textIgnoreCase "Fixes")
        (alt (textIgnoreCase "Resolves") (textIgnoreCase "Implements"))))
        (seq (plus (chars fun c => c = ':' || isSpace c)) (ticketRegex i))
    after := wordBoundary i }

section
variable (i : ReceiptInterpreter)

/-- `sorted({f"OMN-{m}" for m in matches})`. -/
def sortedTickets (numbers : List String) : List String :=
  sortedAsc id (numbers.map fun m => "OMN-" ++ m).dedup

def extractTicketIds (prBody : String) (prTitle : Option String) : List String :=
  let closingMatches := (closingKeywordPattern i.toTextInterpreter).findall "1" prBody
  if closingMatches ≠ [] then sortedTickets closingMatches
  -- there is nothing to find in an empty title
  else sortedTickets ((ticketPattern i.toTextInterpreter).findall "1" (prTitle.getD ""))

end

/-! ## Checks -/

def checkOf : Value → Option (String × String)
  | .dict check => do
    let ctype ← (Mapping.get check "check_type").bind asText
    let cvalue ← (Mapping.get check "check_value").bind asText
    return (ctype, cvalue)
  | _ => none

def checksOf (item : Mapping) : List Value :=
  match item.get "checks" with
  | some (.list checks) => checks
  | _ => []

def iterDodEvidence (contractData : Value) : List (String × String × String) :=
  (idItems contractData).flatMap fun item =>
    (checksOf item.2).filterMap fun check => (checkOf check).map fun c => (item.1, c.1, c.2)

/-! ## Binding -/

section
variable (i : ReceiptInterpreter)

def checkReceiptContractBinding (receipt : ModelDodReceipt) (contractData : Value)
    (evidenceItemId wholeFileHash : String) (isBoundToThisPr : Bool) :
    Except PyException (Option String) :=
  match receipt.contractEntrySha256 with
  | some entryHash =>
    match i.computeContractEntrySha256 contractData evidenceItemId with
    | .error (.contractEntryNotFoundError e) =>
      .ok (some ("contract_entry_sha256 present but " ++ e ++ "; the receipt binds a " ++
        "dod_evidence item that no longer exists in the contract"))
    | .error (.raised e) => .error e
    | .ok expected =>
      if entryHash ≠ expected then
        .ok (some ("entry hash mismatch: receipt contract_entry_sha256=" ++ i.repr entryHash ++
          " does not match recomputed per-entry hash " ++ i.repr expected ++ " for " ++
          i.repr evidenceItemId ++ ". The dod_evidence item mutated since the receipt was " ++
          "produced (or the receipt is forged); rerun probes."))
      else .ok none
  | none =>
    match receipt.contractSha256 with
    | some hash =>
      if isBoundToThisPr ∧ hash ≠ wholeFileHash then
        .ok (some ("whole-file hash mismatch: receipt contract_sha256=" ++ i.repr hash ++
          " does not match pinned contract hash " ++ i.repr wholeFileHash ++
          ". Contract mutated post-receipt; rerun probes or mint a per-entry hash."))
      else .ok none
    | none => .ok none

/-- The hashes of a receipt bind it to a contract: the hash of its entry if it has one, and
otherwise the hash of the file if it belongs to the pull request. -/
def BoundToContract (receipt : ModelDodReceipt) (contractData : Value)
    (evidenceItemId wholeFileHash : String) (isBoundToThisPr : Bool) : Prop :=
  match receipt.contractEntrySha256 with
  | some entryHash => i.computeContractEntrySha256 contractData evidenceItemId = .ok entryHash
  | none => ∀ hash, receipt.contractSha256 = some hash → isBoundToThisPr = true →
      hash = wholeFileHash

variable {i}

/-- A receipt that passes is bound to the contract. -/
theorem checkReceiptContractBinding_spec {receipt : ModelDodReceipt} {contractData : Value}
    {evidenceItemId wholeFileHash : String} {isBoundToThisPr : Bool}
    (h : checkReceiptContractBinding i receipt contractData evidenceItemId wholeFileHash
      isBoundToThisPr = .ok none) :
    BoundToContract i receipt contractData evidenceItemId wholeFileHash isBoundToThisPr := by
  unfold checkReceiptContractBinding at h
  unfold BoundToContract
  cases hentry : receipt.contractEntrySha256 with
  | some entryHash =>
    rw [hentry] at h
    dsimp only at h ⊢
    cases hexpected : i.computeContractEntrySha256 contractData evidenceItemId with
    | error e =>
      rw [hexpected] at h
      cases e <;> exact nomatch h
    | ok expected =>
      rw [hexpected] at h
      dsimp only at h
      split_ifs at h with hne
      · exact nomatch h
      · rw [not_not.mp hne]
  | none =>
    rw [hentry] at h
    intro hash hhash hbound
    rw [hhash] at h
    dsimp only at h
    split_ifs at h with hmismatch
    · exact nomatch h
    · by_contra hne
      exact hmismatch ⟨hbound, hne⟩

end

end OmnibaseCore.Receipts
