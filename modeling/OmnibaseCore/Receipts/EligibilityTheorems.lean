import OmnibaseCore.Receipts.Eligibility

/-!
# Eligible pull requests

* `eligible_sound`: what an eligible pull request has for each of its tickets.
-/

namespace OmnibaseCore.Receipts

variable {i : ReceiptInterpreter} {files : ReceiptFiles} {snapshot : ModelOccEligibilityInput}
  {ticketIds : List String}

/-! ## Returns on the way -/

/-- Whatever is returned on the way is a refusal. -/
def Refuses {α : Type} (x : Except (Exit ModelOccEligibilityResult) α) : Prop :=
  ∀ result, x = .error (.returned result) → result.eligible = false

variable {α : Type}

theorem refuses_ok (a : α) : Refuses (.ok a : Except (Exit ModelOccEligibilityResult) α) := nofun

theorem refuses_raised (e : PyException) :
    Refuses (.error (.raised e) : Except (Exit ModelOccEligibilityResult) α) := nofun

theorem refuses_call (x : Except PyException α) : Refuses (Exit.call x) :=
  fun _ h => absurd h Exit.call_ne_returned

theorem refuses_bind {α β : Type} {x : Except (Exit ModelOccEligibilityResult) α}
    {f : α → Except (Exit ModelOccEligibilityResult) β} (hx : Refuses x) (hf : ∀ a, Refuses (f a)) :
    Refuses (x >>= f) := by
  intro result h
  rcases bind_eq_error h with h | ⟨a, -, h⟩
  · exact hx result h
  · exact hf a result h

theorem refuses_foldlM {β σ : Type} {step : σ → β → Except (Exit ModelOccEligibilityResult) σ}
    (hstep : ∀ s b, Refuses (step s b)) (l : List β) (s : σ) : Refuses (l.foldlM step s) := by
  intro result h
  obtain ⟨b, -, s', hs'⟩ := exists_of_foldlM_error h
  exact hstep s' b result hs'

variable {result : ModelOccEligibilityResult}

theorem refuses_refuse {evidence : Evidence} (hresult : result.eligible = false) :
    Refuses (refuse snapshot ticketIds evidence result : Except _ α) := by
  intro result' h
  unfold refuse Exit.return_ at h
  split_ifs at h
  · rw [← Exit.returned.inj (Except.error.inj h)]
    rfl
  · rw [← Exit.returned.inj (Except.error.inj h)]
    exact hresult

theorem refuses_refuseNonpass (evidence : Evidence) (key : ReceiptKey) (detail : String) :
    Refuses (refuseNonpass snapshot ticketIds evidence key detail : Except _ α) :=
  refuses_refuse rfl

theorem refuses_baseReceipt (evidence : Evidence) (key : ReceiptKey) :
    Refuses (baseReceipt i files snapshot ticketIds evidence key) := by
  unfold baseReceipt
  dsimp only
  split
  · exact refuses_ok _
  · split
    · exact refuses_raised _
    · exact refuses_refuseNonpass _ _ _
    · split
      · exact refuses_refuseNonpass _ _ _
      · exact refuses_ok _

theorem refuses_receiptOf (evidence : Evidence) (key : ReceiptKey) :
    Refuses (receiptOf i files snapshot ticketIds evidence key) := by
  refine refuses_bind (refuses_call _) fun supersession => ?_
  cases supersession with
  | none => exact refuses_baseReceipt _ _
  | some supersession =>
    dsimp only
    split
    · exact refuses_refuseNonpass _ _ _
    · split
      · exact refuses_ok _
      · split
        · exact refuses_ok _
        · exact refuses_ok _

theorem refuses_judgeReceipt (contractData : Value) (contractHash : String) (evidence : Evidence)
    (key : ReceiptKey) (receipt : ModelDodReceipt) (receiptSource : String) :
    Refuses (judgeReceipt i snapshot ticketIds contractData contractHash evidence key receipt
      receiptSource) := by
  unfold judgeReceipt
  dsimp only
  split
  · exact refuses_refuse rfl
  · split
    · exact refuses_refuse rfl
    · refine refuses_bind (refuses_call _) fun bindingError => ?_
      cases bindingError with
      | some bindingError => exact refuses_ok _
      | none =>
        dsimp only
        split
        · exact refuses_ok _
        · exact refuses_ok _

theorem refuses_checkKey (contractData : Value) (contractHash ticketId : String)
    (evidence : Evidence) (triple : String × String × String) :
    Refuses (checkKey i files snapshot ticketIds contractData contractHash ticketId evidence
      triple) := by
  refine refuses_bind (refuses_receiptOf _ _) fun receipt => ?_
  cases receipt with
  | none => exact refuses_ok _
  | some receipt => exact refuses_judgeReceipt _ _ _ _ _ _

theorem refuses_checkTicketEvidence (evidence : Evidence) (ticketId : String) :
    Refuses (checkTicketEvidence i files snapshot ticketIds evidence ticketId) := by
  unfold checkTicketEvidence
  dsimp only
  split
  · exact refuses_ok _
  · split
    · exact refuses_raised _
    · exact refuses_refuse rfl
    · split
      · exact refuses_ok _
      · exact refuses_foldlM (refuses_checkKey _ _ _) _ _

/-! ## Clean evidence -/

structure Evidence.Clean (evidence : Evidence) : Prop where
  missingContracts : evidence.missingContracts = []
  missingReceipts : evidence.missingReceipts = []
  nonpassReceipts : evidence.nonpassReceipts = []
  staleBindings : evidence.staleBindings = []

/-- The only way to be eligible. -/
theorem verdict_eligible {evidence : Evidence}
    (h : (verdict snapshot ticketIds evidence).eligible = true) :
    evidence.Clean ∧ ∀ ticketId ∈ ticketIds, ticketId ∈ evidence.ticketsWithPrBoundReceipt := by
  unfold verdict at h
  by_cases hstale : evidence.staleBindings ≠ []
  · rw [if_pos hstale] at h
    exact nomatch h
  rw [if_neg hstale] at h
  by_cases hcontracts : evidence.missingContracts ≠ []
  · rw [if_pos hcontracts] at h
    exact nomatch h
  rw [if_neg hcontracts] at h
  by_cases hreceipts : evidence.missingReceipts ≠ [] ∨ evidence.nonpassReceipts ≠ []
  · rw [if_pos hreceipts] at h
    exact nomatch h
  rw [if_neg hreceipts] at h
  dsimp only at h
  by_cases hunbound : (ticketIds.filter fun ticketId =>
      ticketId ∉ evidence.ticketsWithPrBoundReceipt) ≠ []
  · rw [if_pos hunbound] at h
    exact nomatch h
  rw [not_or, not_not, not_not] at hreceipts
  rw [not_not, List.filter_eq_nil_iff] at hunbound
  refine ⟨⟨not_not.mp hcontracts, hreceipts.1, hreceipts.2, not_not.mp hstale⟩, ?_⟩
  simpa using hunbound

/-! ## A receipt -/

variable {evidence evidence' : Evidence} {key : ReceiptKey} {receipt : ModelDodReceipt}
  {source : String}

theorem refuse_ne_ok {a : α} :
    refuse snapshot ticketIds evidence result ≠ .ok a := by
  unfold refuse
  split_ifs <;> exact nofun

theorem baseReceipt_spec
    (h : baseReceipt i files snapshot ticketIds evidence key = .ok (some (receipt, source))) :
    ∃ raw, files.loadYaml (key.basePath snapshot.receiptsDir) = .ok raw ∧
      ModelDodReceipt.modelValidate i raw = .ok receipt := by
  unfold baseReceipt at h
  dsimp only at h
  split_ifs at h
  · exact nomatch h
  · split at h
    · exact nomatch h
    · exact absurd h refuse_ne_ok
    · rename_i raw hload
      split at h
      · exact absurd h refuse_ne_ok
      · rename_i receipt' hvalid
        have heq := Option.some.inj (Except.ok.inj h)
        rw [(Prod.mk.inj heq).1] at hvalid
        exact ⟨raw, hload, hvalid⟩

theorem receiptOf_spec
    (h : receiptOf i files snapshot ticketIds evidence key = .ok (some (receipt, source))) :
    IsActive i files snapshot.receiptsDir key receipt ∧
      (keyRecords i files snapshot.receiptsDir key ≠ .ok [] → receipt.key = key) := by
  unfold receiptOf at h
  obtain ⟨supersession, hsupersession, h⟩ := bind_eq_ok h
  rw [Exit.call_eq_ok_iff] at hsupersession
  cases supersession with
  | none =>
    obtain ⟨raw, hload, hvalid⟩ := baseReceipt_spec h
    have hrecords := resolveSupersession_none hsupersession
    exact ⟨.base hrecords hload hvalid, fun hne => absurd hrecords hne⟩
  | some supersession =>
    dsimp only at h
    split at h
    · exact absurd h refuse_ne_ok
    · rename_i herror
      split at h
      · exact nomatch h
      · rename_i receipt' hreceipt
        split_ifs at h
        · exact nomatch h
        · have heq := Option.some.inj (Except.ok.inj h)
          rw [(Prod.mk.inj heq).1] at hreceipt
          obtain ⟨hactive, hkey⟩ := resolveSupersession_spec hsupersession herror hreceipt
          exact ⟨hactive, fun _ => hkey⟩

structure Proves (i : ReceiptInterpreter) (snapshot : ModelOccEligibilityInput)
    (contractData : Value) (contractHash : String) (key : ReceiptKey)
    (receipt : ModelDodReceipt) : Prop where
  status : receipt.status = .pass
  ticketId : receipt.ticketId = key.ticketId
  hashed : receipt.contractSha256 ≠ none ∨ receipt.contractEntrySha256 ≠ none
  bound : BoundToContract i receipt contractData key.evidenceItemId contractHash
    (receiptBoundToPr i receipt snapshot)

section
variable {contractData : Value} {contractHash : String}
  (h : judgeReceipt i snapshot ticketIds contractData contractHash evidence key receipt source =
    .ok evidence')
include h

theorem judgeReceipt_cases :
    receipt.ticketId = key.ticketId ∧
      (receipt.contractSha256 ≠ none ∨ receipt.contractEntrySha256 ≠ none) ∧
      ((evidence'.staleBindings = evidence.staleBindings ++ [key.receiptId] ∧
          evidence'.ticketsWithPrBoundReceipt = evidence.ticketsWithPrBoundReceipt) ∨
        (BoundToContract i receipt contractData key.evidenceItemId contractHash
            (receiptBoundToPr i receipt snapshot) ∧
          evidence'.missingContracts = evidence.missingContracts ∧
          evidence'.missingReceipts = evidence.missingReceipts ∧
          evidence'.staleBindings = evidence.staleBindings ∧
          evidence'.ticketsWithPrBoundReceipt = evidence.ticketsWithPrBoundReceipt ++
            (if receiptBoundToPr i receipt snapshot then [key.ticketId] else []) ∧
          (receipt.status = .pass ∧ evidence'.nonpassReceipts = evidence.nonpassReceipts ∨
            evidence'.nonpassReceipts = evidence.nonpassReceipts ++ [key.receiptId]))) := by
  unfold judgeReceipt at h
  by_cases hticket : receipt.ticketId ≠ key.ticketId
  · rw [if_pos hticket] at h
    exact absurd h refuse_ne_ok
  rw [if_neg hticket] at h
  dsimp only at h
  by_cases hhash : receipt.contractSha256 = none ∧ receipt.contractEntrySha256 = none
  · rw [if_pos hhash] at h
    exact absurd h refuse_ne_ok
  rw [if_neg hhash] at h
  have hhashed : receipt.contractSha256 ≠ none ∨ receipt.contractEntrySha256 ≠ none := by
    by_contra hnone
    rw [not_or, not_not, not_not] at hnone
    exact hhash hnone
  refine ⟨not_not.mp hticket, hhashed, ?_⟩
  obtain ⟨bindingError, hbinding, h⟩ := bind_eq_ok h
  rw [Exit.call_eq_ok_iff] at hbinding
  cases bindingError with
  | some bindingError =>
    have hevidence := Except.ok.inj h
    rw [← hevidence]
    exact Or.inl ⟨rfl, rfl⟩
  | none =>
    right
    refine ⟨checkReceiptContractBinding_spec hbinding, ?_⟩
    dsimp only at h
    by_cases hbound : receiptBoundToPr i receipt snapshot = true <;>
      by_cases hstatus : receipt.status = .pass
    all_goals
      simp only [hbound, hstatus, ne_eq, not_true_eq_false, not_false_eq_true, if_true, if_false,
        Bool.false_eq_true] at h
      have hevidence := Except.ok.inj h
      rw [← hevidence]
      simp [hbound, hstatus]

theorem judgeReceipt_spec (hclean : evidence'.Clean) :
    evidence.Clean ∧ Proves i snapshot contractData contractHash key receipt := by
  obtain ⟨hticket, hhashed, hcases⟩ := judgeReceipt_cases h
  rcases hcases with ⟨hstale, -⟩ | ⟨hbound, hcontracts, hreceipts, hstale, -, hstatus⟩
  · rw [hclean.staleBindings] at hstale
    exact absurd hstale.symm (by simp)
  rcases hstatus with ⟨hpass, hnonpass⟩ | hnonpass
  · refine ⟨⟨?_, ?_, ?_, ?_⟩, hpass, hticket, hhashed, hbound⟩
    · rw [← hcontracts, hclean.missingContracts]
    · rw [← hreceipts, hclean.missingReceipts]
    · rw [← hnonpass, hclean.nonpassReceipts]
    · rw [← hstale, hclean.staleBindings]
  · rw [hclean.nonpassReceipts] at hnonpass
    exact absurd hnonpass.symm (by simp)

theorem judgeReceipt_bound {ticketId : String}
    (hticket : ticketId ∈ evidence'.ticketsWithPrBoundReceipt) :
    ticketId ∈ evidence.ticketsWithPrBoundReceipt ∨
      ticketId = key.ticketId ∧ receiptBoundToPr i receipt snapshot = true := by
  obtain ⟨-, -, hcases⟩ := judgeReceipt_cases h
  rcases hcases with ⟨-, hsame⟩ | ⟨-, -, -, -, hadded, -⟩
  · rw [hsame] at hticket
    exact Or.inl hticket
  · rw [hadded] at hticket
    rcases List.mem_append.mp hticket with hticket | hticket
    · exact Or.inl hticket
    · split_ifs at hticket with hbound
      · exact Or.inr ⟨List.mem_singleton.mp hticket, hbound⟩
      · exact absurd hticket List.not_mem_nil

end

/-! ## A check -/

def keyOf (ticketId : String) (triple : String × String × String) : ReceiptKey :=
  { ticketId := ticketId, evidenceItemId := triple.1, checkType := triple.2.1 }

/-- The active receipt of a key proves its check. A receipt from a record has the key. -/
def KeyProved (i : ReceiptInterpreter) (files : ReceiptFiles) (snapshot : ModelOccEligibilityInput)
    (contractData : Value) (contractHash : String) (key : ReceiptKey) : Prop :=
  ∃ receipt, IsActive i files snapshot.receiptsDir key receipt ∧
    (keyRecords i files snapshot.receiptsDir key ≠ .ok [] → receipt.key = key) ∧
    Proves i snapshot contractData contractHash key receipt

def KeyBound (i : ReceiptInterpreter) (files : ReceiptFiles) (snapshot : ModelOccEligibilityInput)
    (key : ReceiptKey) : Prop :=
  ∃ receipt, IsActive i files snapshot.receiptsDir key receipt ∧
    receiptBoundToPr i receipt snapshot = true

variable {contractData : Value} {contractHash ticketId : String}
  {triple : String × String × String}

theorem checkKey_spec
    (h : checkKey i files snapshot ticketIds contractData contractHash ticketId evidence triple =
      .ok evidence') (hclean : evidence'.Clean) :
    evidence.Clean ∧
      KeyProved i files snapshot contractData contractHash (keyOf ticketId triple) := by
  unfold checkKey at h
  obtain ⟨found, hfound, h⟩ := bind_eq_ok h
  cases found with
  | none =>
    have hmissing := hclean.missingReceipts
    rw [← Except.ok.inj h] at hmissing
    exact absurd hmissing (by simp)
  | some found =>
    obtain ⟨hactive, hkey⟩ := receiptOf_spec hfound
    obtain ⟨hbefore, hproves⟩ := judgeReceipt_spec h hclean
    exact ⟨hbefore, found.1, hactive, hkey, hproves⟩

theorem checkKey_bound
    (h : checkKey i files snapshot ticketIds contractData contractHash ticketId evidence triple =
      .ok evidence') {bound : String} (hbound : bound ∈ evidence'.ticketsWithPrBoundReceipt) :
    bound ∈ evidence.ticketsWithPrBoundReceipt ∨
      bound = ticketId ∧ KeyBound i files snapshot (keyOf ticketId triple) := by
  unfold checkKey at h
  obtain ⟨found, hfound, h⟩ := bind_eq_ok h
  cases found with
  | none =>
    rw [← Except.ok.inj h] at hbound
    exact Or.inl hbound
  | some found =>
    obtain ⟨hactive, -⟩ := receiptOf_spec hfound
    rcases judgeReceipt_bound h hbound with hbound | ⟨hticket, hreceipt⟩
    · exact Or.inl hbound
    · exact Or.inr ⟨hticket, found.1, hactive, hreceipt⟩

/-! ## A ticket -/

def HasContract (i : ReceiptInterpreter) (files : ReceiptFiles)
    (snapshot : ModelOccEligibilityInput) (ticketId : String) (contractData : Value)
    (contractHash : String) : Prop :=
  files.isFile (joinPath snapshot.contractsDir (ticketId ++ ".yaml")) = true ∧
    loadContract i files (joinPath snapshot.contractsDir (ticketId ++ ".yaml")) =
      .ok (contractData, contractHash)

def TicketProved (i : ReceiptInterpreter) (files : ReceiptFiles)
    (snapshot : ModelOccEligibilityInput) (ticketId : String) : Prop :=
  ∃ contractData contractHash, HasContract i files snapshot ticketId contractData contractHash ∧
    iterDodEvidence contractData ≠ [] ∧
    ∀ triple ∈ iterDodEvidence contractData,
      KeyProved i files snapshot contractData contractHash (keyOf ticketId triple)

def TicketBound (i : ReceiptInterpreter) (files : ReceiptFiles)
    (snapshot : ModelOccEligibilityInput) (ticketId : String) : Prop :=
  ∃ contractData contractHash, HasContract i files snapshot ticketId contractData contractHash ∧
    ∃ triple ∈ iterDodEvidence contractData, KeyBound i files snapshot (keyOf ticketId triple)

section
variable (h : checkTicketEvidence i files snapshot ticketIds evidence ticketId = .ok evidence')
include h

theorem checkTicketEvidence_cases :
    (evidence'.missingContracts ≠ [] ∨ evidence'.missingReceipts ≠ []) ∧
        evidence'.ticketsWithPrBoundReceipt = evidence.ticketsWithPrBoundReceipt ∨
      ∃ contractData contractHash, HasContract i files snapshot ticketId contractData contractHash ∧
        iterDodEvidence contractData ≠ [] ∧
        (iterDodEvidence contractData).foldlM
          (checkKey i files snapshot ticketIds contractData contractHash ticketId)
          { evidence with
            contractHashes := dictSet evidence.contractHashes ticketId contractHash } =
          .ok evidence' := by
  unfold checkTicketEvidence at h
  dsimp only at h
  by_cases hfile : files.isFile (joinPath snapshot.contractsDir (ticketId ++ ".yaml")) = true
  · rw [hfile, Bool.not_true, if_neg Bool.false_ne_true] at h
    split at h
    · exact nomatch h
    · exact absurd h refuse_ne_ok
    · rename_i contractData contractHash hload
      by_cases htriples : iterDodEvidence contractData = []
      · rw [if_pos htriples] at h
        rw [← Except.ok.inj h]
        exact Or.inl ⟨Or.inr (by simp), rfl⟩
      · rw [if_neg htriples] at h
        exact Or.inr ⟨contractData, contractHash, ⟨hfile, hload⟩, htriples, h⟩
  · rw [Bool.eq_false_iff.mpr hfile, Bool.not_false, if_pos rfl] at h
    rw [← Except.ok.inj h]
    exact Or.inl ⟨Or.inl (by simp), rfl⟩

theorem checkTicketEvidence_spec
    (hclean : evidence'.Clean) : evidence.Clean ∧ TicketProved i files snapshot ticketId := by
  rcases checkTicketEvidence_cases h with
    ⟨htrace, -⟩ | ⟨contractData, contractHash, hcontract, htriples, hloop⟩
  · exact absurd htrace (by simp [hclean.missingContracts, hclean.missingReceipts])
  · have hall := forall_of_foldlM
      (C := Evidence.Clean)
      (G := fun triple => KeyProved i files snapshot contractData contractHash
        (keyOf ticketId triple))
      (fun _ _ _ hstep hclean => checkKey_spec hstep hclean) hloop hclean
    obtain ⟨hbefore, hproved⟩ := hall
    exact ⟨⟨hbefore.1, hbefore.2, hbefore.3, hbefore.4⟩, contractData, contractHash, hcontract,
      htriples, hproved⟩

theorem checkTicketEvidence_bound
    {bound : String} (hbound : bound ∈ evidence'.ticketsWithPrBoundReceipt) :
    bound ∈ evidence.ticketsWithPrBoundReceipt ∨
      bound = ticketId ∧ TicketBound i files snapshot ticketId := by
  rcases checkTicketEvidence_cases h with
    ⟨-, hsame⟩ | ⟨contractData, contractHash, hcontract, -, hloop⟩
  · rw [hsame] at hbound
    exact Or.inl hbound
  · have hfound := exists_of_mem_foldlM
      (f := Evidence.ticketsWithPrBoundReceipt)
      (F := fun triple bound => bound = ticketId ∧
        KeyBound i files snapshot (keyOf ticketId triple))
      (fun _ _ _ hstep _ hc => checkKey_bound hstep hc) hloop hbound
    rcases hfound with hbound | ⟨triple, htriple, hticket, hkey⟩
    · exact Or.inl hbound
    · exact Or.inr ⟨hticket, contractData, contractHash, hcontract, triple, htriple, hkey⟩

end

/-! ## Eligibility -/

/-- An eligible pull request has the evidence for each of its tickets: a contract with checks,
active receipts that have passed and are bound to the contract, and one among them that belongs to
the pull request. -/
theorem eligible_sound (i : ReceiptInterpreter) (files : ReceiptFiles)
    (snapshot : ModelOccEligibilityInput) {result : ModelOccEligibilityResult}
    (h : validateOccMergeEligibility i files snapshot = .ok result)
    (heligible : result.eligible = true) :
    ∀ ticketId ∈ extractTicketIds i snapshot.prBody (some snapshot.prTitle),
      TicketProved i files snapshot ticketId ∧ TicketBound i files snapshot ticketId := by
  unfold validateOccMergeEligibility at h
  dsimp only at h
  generalize extractTicketIds i snapshot.prBody (some snapshot.prTitle) = ticketIds at h ⊢
  by_cases hnone : ticketIds = []
  · rw [if_pos hnone] at h
    rw [← Except.ok.inj h] at heligible
    exact nomatch heligible
  rw [if_neg hnone, Exit.run_eq_ok_iff] at h
  unfold eligibilityBody at h
  cases hunbound : ticketIds.find? fun ticketId => !ticketBoundToPr i ticketId snapshot with
  | some ticketId =>
    rw [hunbound] at h
    rcases h with h | h
    · rw [← Except.ok.inj h] at heligible
      exact nomatch heligible
    · exact nomatch h
  | none =>
    rw [hunbound] at h
    rcases h with h | h
    · obtain ⟨evidence, hloop, h⟩ := bind_eq_ok h
      rw [← Except.ok.inj h] at heligible
      obtain ⟨hclean, hbound⟩ := verdict_eligible heligible
      -- every turn of the loop has proved its ticket, as the evidence is clean
      have hproved := forall_of_foldlM (C := Evidence.Clean)
        (G := TicketProved i files snapshot)
        (fun _ _ _ hstep hclean => checkTicketEvidence_spec hstep hclean) hloop hclean
      intro ticketId hticket
      refine ⟨hproved.2 ticketId hticket, ?_⟩
      -- the receipt that binds the ticket was found at some turn
      have hfound := exists_of_mem_foldlM (f := Evidence.ticketsWithPrBoundReceipt)
        (F := fun ticketId bound => bound = ticketId ∧ TicketBound i files snapshot ticketId)
        (fun _ _ _ hstep _ hc => checkTicketEvidence_bound hstep hc) hloop
        (hbound ticketId hticket)
      rcases hfound with hfound | ⟨ticketId', -, heq, hfound⟩
      · exact absurd hfound List.not_mem_nil
      · rw [heq]
        exact hfound
    · have hrefuses : Refuses (ticketIds.foldlM (checkTicketEvidence i files snapshot ticketIds) {}
          >>= fun evidence => pure (verdict snapshot ticketIds evidence)) :=
        refuses_bind (refuses_foldlM refuses_checkTicketEvidence _ _) fun _ => refuses_ok _
      rw [hrefuses result h] at heligible
      exact nomatch heligible

/-! ## Two receipts -/

def twoItems : Value :=
  let check := fun ctype cvalue => Value.dict [(.str "check_type", .str ctype),
    (.str "check_value", .str cvalue)]
  .dict [(.str "ticket_id", .str "OMN-1"), (.str "schema_version", .str "1.0.0"),
    (.str "dod_evidence", .list [
      .dict [(.str "id", .str "dod-1"), (.str "checks", .list [check "command" "pytest"])],
      .dict [(.str "id", .str "dod-2"), (.str "checks", .list [check "command" "ruff",
        .dict [(.str "check_type", .str "endpoint")]])]])]

/-- The file of the contract, and its hash. -/
def twoItemsText : String :=
  "ticket_id: OMN-1\nschema_version: 1.0.0\ndod_evidence:\n- id: dod-1\n  checks:\n" ++
    "  - \x7bcheck_type: command, check_value: pytest\x7d\n- id: dod-2\n  checks:\n" ++
    "  - \x7bcheck_type: command, check_value: ruff\x7d\n  - \x7bcheck_type: endpoint\x7d\n"

def twoItemsHash : String := "b287e6687632391f0d9df727f817789ff8741b501f8f9613f2cd6d4426bc24f8"

/-- The fields that a receipt needs, all of them texts, the time of the run with its zone. -/
def plainFields : Value → Option ModelDodReceipt
  | .dict d => do
    let schemaVersion ← (Mapping.get d "schema_version").bind asText
    let ticketId ← (Mapping.get d "ticket_id").bind asText
    let evidenceItemId ← (Mapping.get d "evidence_item_id").bind asText
    let checkType ← (Mapping.get d "check_type").bind asText
    let checkValue ← (Mapping.get d "check_value").bind asText
    let commitSha ← (Mapping.get d "commit_sha").bind asText
    let runner ← (Mapping.get d "runner").bind asText
    let verifier ← (Mapping.get d "verifier").bind asText
    let probeCommand ← (Mapping.get d "probe_command").bind asText
    let probeStdout ← (Mapping.get d "probe_stdout").bind asText
    let status ← (Mapping.get d "status").bind asText
    let status ← [EnumReceiptStatus.pass, .fail, .advisory, .pending].find? fun s =>
      s.value = status
    let runTimestamp ← (Mapping.get d "run_timestamp").bind asText
    guard (runTimestamp.toList.getLast? = some 'Z')
    return {
      schemaVersion, ticketId, evidenceItemId, checkType, checkValue, status, commitSha
      runner, verifier, probeCommand, probeStdout
      prNumber := (Mapping.get d "pr_number").bind fun v =>
        match v with
        | .int n => some n
        | _ => none
      contractSha256 := (Mapping.get d "contract_sha256").bind asText }
  | _ => none

/-- ASCII, receipts without the fields that are seldom there, and a hash for one file. -/
def plainReceipts : ReceiptInterpreter :=
  { asciiText with
    upper := fun s => String.ofList (s.toList.map Char.toUpper)
    floatRepr := fun _ => "0.0"
    sha256 := id
    casefold := asciiText.lower
    sha256Bytes := fun _ => twoItemsHash
    strValue := fun _ => ""
    reprValue := fun _ => ""
    receiptFields := plainFields
    supersessionFields := fun _ => none
    modelError := fun model _ => model
    runtimeOpsVerbs := []
    shaMatchOutput := fun _ => .error "" }

def receiptValue (itemId contractSha256 : String) (prNumber : ℤ) : Value :=
  .dict [(.str "schema_version", .str "1.0.0"), (.str "ticket_id", .str "OMN-1"),
    (.str "evidence_item_id", .str itemId), (.str "check_type", .str "command"),
    (.str "check_value", .str "pytest"), (.str "status", .str "PASS"),
    (.str "run_timestamp", .str "2026-01-02T03:04:05Z"), (.str "commit_sha", .str "0123456"),
    (.str "runner", .str "worker"),
    (.str "verifier", .str "checker"), (.str "probe_command", .str "pytest"),
    (.str "probe_stdout", .str "ok"), (.str "pr_number", .int prNumber),
    (.str "contract_sha256", .str contractSha256)]

/-- A contract, a receipt of this pull request for the first item, and for the second one a
receipt of an earlier pull request, for another item and with the hash of another file. -/
def twoReceipts : ReceiptFiles where
  exists_ path := path ∈ ["receipts/OMN-1/dod-1/command.yaml", "receipts/OMN-1/dod-2/command.yaml"]
  isFile path := path = "contracts/OMN-1.yaml"
  isDir path := path ∈ ["receipts/OMN-1/dod-1", "receipts/OMN-1/dod-2"]
  readBytes _ := .ok (twoItemsText.toList.map fun c => UInt8.ofNat c.toNat)
  loadYaml path :=
    if path = "contracts/OMN-1.yaml" then .ok twoItems
    else if path = "receipts/OMN-1/dod-1/command.yaml" then
      .ok (receiptValue "dod-1" ("sha256:" ++ twoItemsHash) 7)
    else .ok (receiptValue "dod-9" ("sha256:" ++ String.ofList (List.replicate 64 '0')) 3)
  glob _ _ := .ok []
  rglob _ _ := .ok []

def pullRequest : ModelOccEligibilityInput where
  prNumber := 7
  prTitle := "OMN-1: fix"
  occCommitSha := "0123456789012345678901234567890123456789"
  contractsDir := "contracts"
  receiptsDir := "receipts"

theorem exists_eligible :
    ∃ result, validateOccMergeEligibility plainReceipts twoReceipts pullRequest = .ok result ∧
      result.eligible = true := by
  have hrun : (match validateOccMergeEligibility plainReceipts twoReceipts pullRequest with
      | .ok result => result.eligible
      | .error _ => false) = true := by decide +kernel
  cases hresult : validateOccMergeEligibility plainReceipts twoReceipts pullRequest with
  | error e =>
    rw [hresult] at hrun
    exact nomatch hrun
  | ok result =>
    rw [hresult] at hrun
    exact ⟨result, rfl, hrun⟩

theorem eligible_sound_pullRequest :
    TicketProved plainReceipts twoReceipts pullRequest "OMN-1" ∧
      TicketBound plainReceipts twoReceipts pullRequest "OMN-1" := by
  obtain ⟨result, hresult, heligible⟩ := exists_eligible
  exact eligible_sound plainReceipts twoReceipts pullRequest hresult heligible "OMN-1"
    (by decide +kernel)

/-! ## What an eligible pull request need not have -/

def typeOf : Value → Option String
  | .dict check => (Mapping.get check "check_type").bind asText
  | _ => none

def declaredPairs (contractData : Value) : List (String × String) :=
  (idItems contractData).flatMap fun item =>
    (checksOf item.2).filterMap fun check => (typeOf check).map fun ctype => (item.1, ctype)

/-- The hash of its entry binds a receipt to the contract, or the hash of the file does and the
receipt belongs to the pull request. -/
def HashBound (i : ReceiptInterpreter) (snapshot : ModelOccEligibilityInput) (contractData : Value)
    (contractHash : String) (key : ReceiptKey) (receipt : ModelDodReceipt) : Prop :=
  (∃ hash, receipt.contractEntrySha256 = some hash ∧
      i.computeContractEntrySha256 contractData key.evidenceItemId = .ok hash) ∨
    (receiptBoundToPr i receipt snapshot = true ∧ receipt.contractSha256 = some contractHash)

/-- For everything that its contract lists, a ticket has an active receipt with the same key that
has passed and is bound to the contract, and one of them belongs to the pull request. -/
def FullyProved (i : ReceiptInterpreter) (files : ReceiptFiles)
    (snapshot : ModelOccEligibilityInput) (ticketId : String) : Prop :=
  ∃ contractData contractHash, HasContract i files snapshot ticketId contractData contractHash ∧
    declaredPairs contractData ≠ [] ∧
    (∀ pair ∈ declaredPairs contractData, ∃ receipt,
      IsActive i files snapshot.receiptsDir ⟨ticketId, pair.1, pair.2⟩ receipt ∧
      receipt.status = .pass ∧ receipt.key = ⟨ticketId, pair.1, pair.2⟩ ∧
      HashBound i snapshot contractData contractHash ⟨ticketId, pair.1, pair.2⟩ receipt) ∧
    ∃ pair ∈ declaredPairs contractData, KeyBound i files snapshot ⟨ticketId, pair.1, pair.2⟩

def earlierReceipt : ModelDodReceipt where
  schemaVersion := "1.0.0"
  ticketId := "OMN-1"
  evidenceItemId := "dod-9"
  checkType := "command"
  checkValue := "pytest"
  status := .pass
  commitSha := "0123456"
  runner := "worker"
  verifier := "checker"
  probeCommand := "pytest"
  probeStdout := "ok"
  prNumber := some 3
  contractSha256 := some ("sha256:" ++ String.ofList (List.replicate 64 '0'))

theorem isActive_earlierReceipt :
    IsActive plainReceipts twoReceipts "receipts" ⟨"OMN-1", "dod-2", "command"⟩ earlierReceipt := by
  have hload : twoReceipts.loadYaml (ReceiptKey.basePath ⟨"OMN-1", "dod-2", "command"⟩ "receipts") =
      .ok (receiptValue "dod-9" ("sha256:" ++ String.ofList (List.replicate 64 '0')) 3) := by
    have hpath : ReceiptKey.basePath ⟨"OMN-1", "dod-2", "command"⟩ "receipts" =
      "receipts/OMN-1/dod-2/command.yaml" := by decide +kernel
    rw [hpath]
    rfl
  exact .base (by decide +kernel) hload (by decide +kernel)

/-- A receipt of an earlier pull request is accepted for another item, and with another hash; a
check without a value needs none. -/
theorem earlierReceipt_eligible :
    ∃ result, validateOccMergeEligibility plainReceipts twoReceipts pullRequest = .ok result ∧
      result.eligible = true ∧
      "OMN-1" ∈ extractTicketIds plainReceipts pullRequest.prBody (some pullRequest.prTitle) ∧
      ¬ FullyProved plainReceipts twoReceipts pullRequest "OMN-1" := by
  obtain ⟨result, hresult, heligible⟩ := exists_eligible
  refine ⟨result, hresult, heligible, by decide +kernel, ?_⟩
  rintro ⟨contractData, contractHash, ⟨-, hload⟩, -, hproved, -⟩
  have hcontract : contractData = twoItems := by
    have hpath : joinPath pullRequest.contractsDir ("OMN-1" ++ ".yaml") =
        "contracts/OMN-1.yaml" := by decide +kernel
    rw [hpath] at hload
    exact (Prod.mk.inj (Except.ok.inj hload)).1.symm
  rw [hcontract] at hproved
  obtain ⟨receipt, hactive, -, -, hbound⟩ := hproved ("dod-2", "command") (by decide +kernel)
  rw [hactive.unique isActive_earlierReceipt] at hbound
  rcases hbound with ⟨hash, hentry, -⟩ | ⟨hbound, -⟩
  · exact nomatch hentry
  · exact absurd hbound (by decide +kernel)

end OmnibaseCore.Receipts
