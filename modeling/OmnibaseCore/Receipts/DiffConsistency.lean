import OmnibaseCore.Git.NameStatus
import OmnibaseCore.Receipts.AppendOnly
import OmnibaseCore.Receipts.Receipt

/-!
# The diff-consistency gate

What a receipt attests about the diff of its own pull request, against the diff as
`git diff --name-status` prints it.

* `diffConsistency_sound_iff`: the diffs for which a receipt without violations attests the truth.
-/

namespace OmnibaseCore.Receipts

open Git Regex

structure DiffInterpreter extends GateInterpreter where
  /-- The letters of ASCII -/
  upper_ascii : ∀ s : String, (∀ c ∈ s.toList, c.toNat < 128) →
    upper s = String.ofList (s.toList.map Char.toUpper)

def receiptPrefix : String := "drift/dod_receipts/"

def contractPrefix : String := "contracts/"

def mutationCodes : List String := ["M", "D", "R", "C"]

def netNewClaimRes : List Regex :=
  [seq (textIgnoreCase "no existing ")
    (seq (group "1" (alt (seq (textIgnoreCase "receipt") (opt (textIgnoreCase "s")))
      (seq (textIgnoreCase "contract") (opt (textIgnoreCase "s")))))
    (seq (upTo (chars fun c => c ≠ '.') 80)
    (seq (opt (group "2" (textIgnoreCase "are "))) (textIgnoreCase "modif")))),
   seq (textIgnoreCase "net") (seq (chars fun c => c = '-' || c = ' ')
    (seq (textIgnoreCase "new") (seq (chars fun c => c = '-' || c = ' ')
    (textIgnoreCase "only"))))]

structure DiffConsistencyViolation where
  attestation : EnumDiffAttestation
  detail : String
  receiptPath : String := "."

def normalizeNameStatus (i : GateInterpreter) (nameStatus : List (String × String)) :
    List (String × String) :=
  nameStatus.filterMap fun entry =>
    let code := i.statusCode entry.1
    if code ≠ "" then some (code, entry.2) else none

def enforcedAttestations (receipt : ModelDodReceipt) : Finset EnumDiffAttestation :=
  let enforced := receipt.diffAttestations.toFinset
  if netNewClaimRes.any fun pattern => pattern.search (receipt.actualOutput.getD "") then
    insert .netNewOnly enforced
  else enforced

def offenders (inScope : String → Bool) (entries : List (String × String)) : List String :=
  entries.filterMap fun entry =>
    if inScope entry.2 && entry.1 ∈ mutationCodes then some (entry.1 ++ " " ++ entry.2) else none

def checkScope (inScope : String → Bool) (detail : List String → String)
    (entries : List (String × String)) : Option String :=
  if offenders inScope entries = [] then none else some (detail (offenders inScope entries))

def checkNetNewOnly (entries : List (String × String)) : Option String :=
  checkScope (fun path => startsWith receiptPrefix path || startsWith contractPrefix path)
    (fun offenders =>
      "receipt attests NET_NEW_ONLY but the diff modifies/deletes/renames " ++
        toString offenders.length ++ " pre-existing receipt/contract file(s): " ++
        ", ".intercalate (sortedAsc id offenders))
    entries

def checkReceiptsUnmodified (entries : List (String × String)) : Option String :=
  checkScope (fun path => startsWith receiptPrefix path)
    (fun offenders =>
      "receipt attests RECEIPTS_UNMODIFIED but the diff modifies/deletes/" ++ "renames " ++
        toString offenders.length ++ " merged receipt file(s): " ++
        ", ".intercalate (sortedAsc id offenders))
    entries

def checkContractUnmodified (entries : List (String × String)) (ticketId : String) :
    Option String :=
  checkScope (fun path => path = contractPrefix ++ ticketId ++ ".yaml")
    (fun offenders =>
      "receipt attests CONTRACT_UNMODIFIED but the diff modifies/deletes/" ++
        "renames its own contract: " ++ ", ".intercalate (sortedAsc id offenders))
    entries

def checkDiffConsistency (i : GateInterpreter) (receipt : ModelDodReceipt)
    (nameStatus : List (String × String)) (ticketId : Option String) :
    List DiffConsistencyViolation :=
  let resolvedTicket := ticketId.getD receipt.ticketId
  let enforced := enforcedAttestations receipt
  if enforced = ∅ then []
  else
    let entries := normalizeNameStatus i nameStatus
    let violation (attestation : EnumDiffAttestation) (detail : Option String) :=
      if attestation ∈ enforced then
        (detail.map fun detail => { attestation, detail : DiffConsistencyViolation }).toList
      else []
    violation .netNewOnly (checkNetNewOnly entries) ++
      violation .receiptsUnmodified (checkReceiptsUnmodified entries) ++
      violation .contractUnmodified (checkContractUnmodified entries resolvedTicket)

def parseNameStatus (text : String) : List (String × String) :=
  (splitlines text).filterMap fun line =>
    if strip line = "" then none
    else
      let parts := splitAt '\t' line
      if parts.length < 2 then none
      else some (parts.head?.getD "", parts.getLast?.getD "")

/-! ## What the parser keeps -/

theorem parseNameStatus_nameStatusText (changes : List Change) :
    parseNameStatus (nameStatusText changes)
      = changes.map fun c => (c.status, quotePath c.path) := by
  unfold parseNameStatus
  rw [splitlines_nameStatusText, List.filterMap_map, ← List.filterMap_eq_map]
  refine List.filterMap_congr fun c _ => ?_
  obtain ⟨between, hfields, -⟩ := c.fields_eq
  have hletter : c.letter ∈ c.line.toList := by
    unfold Change.line
    rw [hfields, String.toList_intercalate, List.map_cons, c.toList_status]
    cases (between ++ [quotePath c.path]).map String.toList <;> simp
  have hline : strip c.line ≠ "" := by
    apply strip_ne_empty hletter
    cases c <;> rfl
  have hlast : (c.status :: (between ++ [quotePath c.path])).getLast? = some (quotePath c.path) := by
    rw [← List.cons_append, List.getLast?_concat]
  show (if strip c.line = "" then none else _) = _
  rw [if_neg hline, c.splitAt_line, hfields, hlast]
  simp

variable (i : DiffInterpreter)

theorem statusCode_status (c : Change) :
    i.statusCode c.status = String.ofList [c.letter] := by
  have hspace : ∀ d ∈ c.status.toList, isSpace d = false := by
    intro d hd
    rw [c.toList_status] at hd
    rcases List.mem_cons.mp hd with rfl | hd
    · cases c <;> rfl
    · exact isSpace_of_isDigit (c.isDigit_score d hd)
  have hne : c.status ≠ "" := by
    intro hempty
    have hlist := congrArg String.toList hempty
    rw [c.toList_status] at hlist
    exact nomatch hlist
  have hupper : i.upper c.status = String.ofList (c.status.toList.map Char.toUpper) := by
    apply i.upper_ascii
    intro d hd
    have hprintable := c.isPrintable_status d hd
    simp only [isPrintable, Bool.and_eq_true, decide_eq_true_eq] at hprintable
    omega
  have hletter : c.letter.toUpper = c.letter := by
    cases c <;> rfl
  unfold GateInterpreter.statusCode
  rw [strip_eq_self hspace, if_pos hne, hupper, String.toList_ofList, c.toList_status,
    List.map_cons, List.take_succ_cons, List.take_zero, hletter]

theorem normalizeNameStatus_nameStatusText (changes : List Change) :
    normalizeNameStatus i.toGateInterpreter (parseNameStatus (nameStatusText changes))
      = changes.map fun c => (String.ofList [c.letter], quotePath c.path) := by
  unfold normalizeNameStatus
  rw [parseNameStatus_nameStatusText, List.filterMap_map, ← List.filterMap_eq_map]
  refine List.filterMap_congr fun c _ => ?_
  have hne : String.ofList [c.letter] ≠ "" := by
    intro hempty
    have hlist := congrArg String.toList hempty
    rw [String.toList_ofList] at hlist
    exact nomatch hlist
  simp only [Function.comp_apply, statusCode_status, if_pos hne]

/-! ## What is a violation -/

def EnumDiffAttestation.Covers (ticketId : String) : EnumDiffAttestation → String → Prop
  | .netNewOnly, path => startsWith receiptPrefix path = true ∨ startsWith contractPrefix path = true
  | .receiptsUnmodified, path => startsWith receiptPrefix path = true
  | .contractUnmodified, path => path = contractPrefix ++ ticketId ++ ".yaml"

theorem checkScope_eq_none_iff {inScope : String → Bool} {detail : List String → String}
    {entries : List (String × String)} :
    checkScope inScope detail entries = none ↔
      ∀ e ∈ entries, inScope e.2 = true → e.1 ∉ mutationCodes := by
  unfold checkScope offenders
  rw [ite_eq_left_iff, imp_iff_not (by simp), not_not, List.filterMap_eq_nil_iff]
  simp

/-- There is no violation if and only if no entry that an attestation speaks of has a mutation
code. -/
theorem checkDiffConsistency_eq_nil_iff {i : GateInterpreter} {receipt : ModelDodReceipt}
    {nameStatus : List (String × String)} {ticketId : Option String} :
    checkDiffConsistency i receipt nameStatus ticketId = [] ↔
      ∀ a ∈ enforcedAttestations receipt, ∀ e ∈ normalizeNameStatus i nameStatus,
        a.Covers (ticketId.getD receipt.ticketId) e.2 → e.1 ∉ mutationCodes := by
  have hpart : ∀ (a : EnumDiffAttestation) (detail : Option String),
      (if a ∈ enforcedAttestations receipt then
        (detail.map fun detail => { attestation := a, detail : DiffConsistencyViolation }).toList
      else []) = [] ↔ (a ∈ enforcedAttestations receipt → detail = none) := by
    intro a detail
    split_ifs with ha
    · cases detail <;> simp [ha]
    · simp [ha]
  have hall : ∀ P : EnumDiffAttestation → Prop,
      (∀ a ∈ enforcedAttestations receipt, P a) ↔
        ((.netNewOnly ∈ enforcedAttestations receipt → P .netNewOnly) ∧
          (.receiptsUnmodified ∈ enforcedAttestations receipt → P .receiptsUnmodified)) ∧
          (.contractUnmodified ∈ enforcedAttestations receipt → P .contractUnmodified) := by
    intro P
    constructor
    · exact fun h => ⟨⟨h _, h _⟩, h _⟩
    · rintro ⟨⟨hnew, hreceipts⟩, hcontract⟩ a ha
      cases a with
      | netNewOnly => exact hnew ha
      | receiptsUnmodified => exact hreceipts ha
      | contractUnmodified => exact hcontract ha
  unfold checkDiffConsistency
  dsimp only
  rw [hall]
  by_cases hempty : enforcedAttestations receipt = ∅
  · simp [hempty]
  · rw [if_neg hempty, List.append_eq_nil_iff, List.append_eq_nil_iff, hpart, hpart, hpart]
    simp only [checkNetNewOnly, checkReceiptsUnmodified, checkContractUnmodified,
      checkScope_eq_none_iff, Bool.or_eq_true, decide_eq_true_eq, EnumDiffAttestation.Covers]

/-! ## What a diff hides -/

section
variable {Object : Type} {base head : Git.Tree Object} {changes : List Change}
  {ticketId : String} {a : EnumDiffAttestation}

/-- What the attestation says: the files of the base that it speaks of are unchanged at the
head. -/
def EnumDiffAttestation.Holds (ticketId : String) (base head : Git.Tree Object)
    (a : EnumDiffAttestation) : Prop :=
  ∀ path file, base path = some file → a.Covers ticketId path → head path = some file

/-- The change has a mutation code beside a path of the attestation that is printed as it is. -/
def Counted (ticketId : String) (a : EnumDiffAttestation) (c : Change) : Prop :=
  c.letter ∈ ['M', 'D', 'R', 'C'] ∧ PlainPath c.path ∧ a.Covers ticketId c.path

/-- The change alters a file of the attestation and is not counted: its type changes, it is moved
out of the scope, or its path is printed in quotation marks. -/
inductive Missed (ticketId : String) (a : EnumDiffAttestation) : Change → Prop
  | typeChanged {path : String} (hcovers : a.Covers ticketId path) :
    Missed ticketId a (.typeChanged path)
  | movedOut {score : ℕ} {old new : String} (hcovers : a.Covers ticketId old)
    (hout : PlainPath new → ¬ a.Covers ticketId new) : Missed ticketId a (.renamed score old new)
  | quotedModified {path : String} (hcovers : a.Covers ticketId path) (hquoted : ¬ PlainPath path) :
    Missed ticketId a (.modified path)
  | quotedDeleted {path : String} (hcovers : a.Covers ticketId path) (hquoted : ¬ PlainPath path) :
    Missed ticketId a (.deleted path)

theorem EnumDiffAttestation.Covers.head? {path : String} (h : a.Covers ticketId path) :
    path.toList.head? ≠ some '"' := by
  have hprefix : ∀ (start : String) (c : Char), start.toList.head? = some c →
      startsWith start path = true → path.toList.head? = some c := by
    intro start c hc hstart
    obtain ⟨rest, hrest⟩ := List.isPrefixOf_iff_prefix.mp hstart
    rw [← hrest, List.head?_append, hc]
    rfl
  have hreceipt := hprefix receiptPrefix 'd' rfl
  have hcontract := hprefix contractPrefix 'c' rfl
  cases a with
  | netNewOnly =>
    rcases h with h | h
    · rw [hreceipt h]
      decide
    · rw [hcontract h]
      decide
  | receiptsUnmodified =>
    rw [hreceipt h]
    decide
  | contractUnmodified =>
    have hstart : startsWith contractPrefix path = true := by
      obtain rfl : path = contractPrefix ++ ticketId ++ ".yaml" := h
      unfold startsWith
      rw [List.isPrefixOf_iff_prefix, String.append_assoc, String.toList_append]
      exact List.prefix_append _ _
    rw [hcontract hstart]
    decide

theorem covers_quotePath_iff {path : String} :
    a.Covers ticketId (quotePath path) ↔ PlainPath path ∧ a.Covers ticketId path := by
  by_cases hplain : PlainPath path
  · rw [quotePath_of_plain hplain]
    exact ⟨fun h => ⟨hplain, h⟩, And.right⟩
  · exact ⟨fun h => absurd (head?_quotePath hplain) h.head?, fun h => absurd h.1 hplain⟩

theorem letter_mem_mutationCodes_iff {c : Change} :
    String.ofList [c.letter] ∈ mutationCodes ↔ c.letter ∈ ['M', 'D', 'R', 'C'] := by
  cases c <;> simp [mutationCodes, Change.letter]

theorem checkDiffConsistency_nameStatusText {receipt : ModelDodReceipt} {ticketId : Option String} :
    checkDiffConsistency i.toGateInterpreter receipt (parseNameStatus (nameStatusText changes))
        ticketId = [] ↔
      ∀ a ∈ enforcedAttestations receipt, ∀ c ∈ changes,
        ¬ Counted (ticketId.getD receipt.ticketId) a c := by
  rw [checkDiffConsistency_eq_nil_iff, normalizeNameStatus_nameStatusText]
  simp only [List.forall_mem_map, covers_quotePath_iff, letter_mem_mutationCodes_iff]
  exact forall₂_congr fun a _ => forall₂_congr fun c _ =>
    ⟨fun h hcounted => h hcounted.2 hcounted.1, fun h hcovers hletter => h ⟨hletter, hcovers⟩⟩

theorem missed_iff {c : Change} :
    Missed ticketId a c ↔
      (∃ path, c.altered = some path ∧ a.Covers ticketId path) ∧ ¬ Counted ticketId a c := by
  constructor
  · intro hmissed
    cases hmissed with
    | typeChanged hcovers => exact ⟨⟨_, rfl, hcovers⟩, fun h => absurd h.1 (by simp [Change.letter])⟩
    | movedOut hcovers hout => exact ⟨⟨_, rfl, hcovers⟩, fun h => hout h.2.1 h.2.2⟩
    | quotedModified hcovers hquoted => exact ⟨⟨_, rfl, hcovers⟩, fun h => hquoted h.2.1⟩
    | quotedDeleted hcovers hquoted => exact ⟨⟨_, rfl, hcovers⟩, fun h => hquoted h.2.1⟩
  · rintro ⟨⟨path, halter, hcovers⟩, hnot⟩
    cases c with
    | added p => exact nomatch halter
    | modified p =>
      obtain rfl : p = path := Option.some.inj halter
      exact .quotedModified hcovers fun hplain => hnot ⟨by simp [Change.letter], hplain, hcovers⟩
    | deleted p =>
      obtain rfl : p = path := Option.some.inj halter
      exact .quotedDeleted hcovers fun hplain => hnot ⟨by simp [Change.letter], hplain, hcovers⟩
    | renamed score old new =>
      obtain rfl : old = path := Option.some.inj halter
      exact .movedOut hcovers fun hplain hnew => hnot ⟨by simp [Change.letter], hplain, hnew⟩
    | copied score old new => exact nomatch halter
    | typeChanged p =>
      obtain rfl : p = path := Option.some.inj halter
      exact .typeChanged hcovers

theorem holds_iff (h : Describes base head changes) :
    a.Holds ticketId base head ↔
      ∀ c ∈ changes, ¬ ∃ path, c.altered = some path ∧ a.Covers ticketId path := by
  constructor
  · rintro hholds c hc ⟨path, halter, hcovers⟩
    obtain ⟨file, hfile⟩ := Option.isSome_iff_exists.mp (h.isSome_of_altered hc halter)
    exact (h.alters hfile).mpr ⟨c, hc, halter⟩ (hholds path file hfile hcovers)
  · intro hnone path file hfile hcovers
    by_contra hhead
    obtain ⟨c, hc, halter⟩ := (h.alters hfile).mp hhead
    exact hnone c hc ⟨path, halter, hcovers⟩

/-- For an attestation of a receipt, that the absence of violations makes it true: if and only if
something is counted, or nothing of the attestation is missed. -/
theorem diffConsistency_sound_iff (i : DiffInterpreter) (h : Describes base head changes)
    (receipt : ModelDodReceipt) (ticketId : Option String) {a : EnumDiffAttestation}
    (ha : a ∈ enforcedAttestations receipt) :
    (checkDiffConsistency i.toGateInterpreter receipt (parseNameStatus (nameStatusText changes))
        ticketId = [] → a.Holds (ticketId.getD receipt.ticketId) base head) ↔
      (∃ b ∈ enforcedAttestations receipt, ∃ c ∈ changes,
        Counted (ticketId.getD receipt.ticketId) b c) ∨
        ∀ c ∈ changes, ¬ Missed (ticketId.getD receipt.ticketId) a c := by
  rw [checkDiffConsistency_nameStatusText, holds_iff h]
  constructor
  · intro hsound
    by_cases hcounted : ∃ b ∈ enforcedAttestations receipt, ∃ c ∈ changes,
        Counted (ticketId.getD receipt.ticketId) b c
    · exact Or.inl hcounted
    · right
      intro c hc hmissed
      exact hsound (fun b hb c hc hcount => hcounted ⟨b, hb, c, hc, hcount⟩) c hc
        (missed_iff.mp hmissed).1
  · rintro (⟨b, hb, c, hc, hcounted⟩ | hnone) hno
    · exact absurd hcounted (hno b hb c hc)
    · exact fun c hc halter => hnone c hc (missed_iff.mpr ⟨halter, hno a ha c hc⟩)

end

/-! ## Examples -/

def plainDiff : DiffInterpreter := { plainGate with upper_ascii := fun _ _ => rfl }

/-- A receipt of `OMN-1` that attests this and that about its diff. -/
def attestingReceipt (diffAttestations : List EnumDiffAttestation) : ModelDodReceipt where
  schemaVersion := "1.0.0"
  ticketId := "OMN-1"
  evidenceItemId := "dod-1"
  checkType := "command"
  checkValue := "pytest"
  status := .pass
  commitSha := "abcdef0"
  runner := "worker"
  verifier := "reviewer"
  probeCommand := "pytest"
  probeStdout := "ok"
  diffAttestations := diffAttestations

def singleFile (path : String) (mode : FileMode) : Git.Tree String := fun p =>
  if p = path then some { mode, object := "yaml" } else none

theorem singleFile_eq_none {path p : String} {mode : FileMode} (h : p ≠ path) :
    singleFile path mode p = none := if_neg h

theorem describes_renamed {old new : String} (hne : old ≠ new) :
    Describes (singleFile old .regular) (singleFile new .regular) [.renamed 100 old new] := by
  have hfile : ∀ path, (singleFile path .regular path).isSome = true := by
    simp [singleFile]
  constructor
  · intro c hc
    rw [List.mem_singleton.mp hc]
    exact ⟨hfile old, singleFile_eq_none hne, singleFile_eq_none hne.symm, hfile new⟩
  · intro path hdiffer
    refine ⟨_, List.mem_singleton_self _, ?_⟩
    by_contra hnot
    have hnew : path ≠ new := fun h => hnot (Or.inl h.symm)
    have hold : path ≠ old := fun h => hnot (Or.inr (congrArg some h.symm))
    exact hdiffer ((singleFile_eq_none hold).trans (singleFile_eq_none hnew).symm)

theorem describes_typeChanged (path : String) :
    Describes (singleFile path .regular) (singleFile path .symlink) [.typeChanged path] := by
  constructor
  · intro c hc
    rw [List.mem_singleton.mp hc]
    exact ⟨_, _, if_pos rfl, if_pos rfl, by decide⟩
  · intro p hdiffer
    refine ⟨_, List.mem_singleton_self _, Or.inl ?_⟩
    by_contra hnot
    have hother : p ≠ path := fun h => hnot h.symm
    exact hdiffer ((singleFile_eq_none hother).trans (singleFile_eq_none hother).symm)

theorem describes_added {tree : Git.Tree String} {path : String} {file : Git.File String}
    (h : tree path = none) :
    Describes tree (fun p => if p = path then some file else tree p) [.added path] := by
  constructor
  · intro c hc
    rw [List.mem_singleton.mp hc]
    exact ⟨h, by simp⟩
  · intro p hdiffer
    refine ⟨_, List.mem_singleton_self _, Or.inl ?_⟩
    by_contra hnot
    exact hdiffer (if_neg fun heq => hnot heq.symm).symm

/-- A receipt is added to the contract that it is about, which stays as it is. -/
theorem diffConsistency_sound_iff_added :
    let base := singleFile "contracts/OMN-1.yaml" .regular
    let added := "drift/dod_receipts/OMN-1/dod-1/command.yaml"
    (checkDiffConsistency plainDiff.toGateInterpreter
        (attestingReceipt [.netNewOnly, .contractUnmodified])
        (parseNameStatus (nameStatusText [.added added])) none = [] ∧
      EnumDiffAttestation.netNewOnly.Covers "OMN-1" "contracts/OMN-1.yaml") ∧
      EnumDiffAttestation.netNewOnly.Holds "OMN-1" base fun path =>
        if path = added then some { mode := .regular, object := "yaml" } else base path := by
  intro base added
  have hcheck : checkDiffConsistency plainDiff.toGateInterpreter
      (attestingReceipt [.netNewOnly, .contractUnmodified])
      (parseNameStatus (nameStatusText [.added added])) none = [] := by
    decide +kernel
  have hnone : ∀ c ∈ [Change.added added], ¬ Missed "OMN-1" .netNewOnly c := by
    intro c hc hmissed
    rw [List.mem_singleton.mp hc] at hmissed
    exact nomatch hmissed
  exact ⟨⟨hcheck, Or.inr (by decide)⟩,
    (diffConsistency_sound_iff plainDiff (describes_added (singleFile_eq_none (by decide)))
      (attestingReceipt [.netNewOnly, .contractUnmodified]) none (by decide)).mpr
      (Or.inr hnone) hcheck⟩

/-- A contract that is moved out of the way is not noticed, nor one that becomes a link. -/
theorem movedContract_not_sound :
    (Describes (singleFile "contracts/OMN-1.yaml" .regular)
        (singleFile "archive/OMN-1.yaml" .regular)
        [.renamed 100 "contracts/OMN-1.yaml" "archive/OMN-1.yaml"] ∧
      checkDiffConsistency plainDiff.toGateInterpreter
        (attestingReceipt [.netNewOnly, .contractUnmodified])
        (parseNameStatus (nameStatusText
          [.renamed 100 "contracts/OMN-1.yaml" "archive/OMN-1.yaml"])) none = [] ∧
      ∀ a ∈ [EnumDiffAttestation.netNewOnly, .contractUnmodified],
        ¬ a.Holds "OMN-1" (singleFile "contracts/OMN-1.yaml" .regular)
          (singleFile "archive/OMN-1.yaml" .regular)) ∧
      (Describes (singleFile "drift/dod_receipts/OMN-1/dod-1/command.yaml" .regular)
        (singleFile "drift/dod_receipts/OMN-1/dod-1/command.yaml" .symlink)
        [.typeChanged "drift/dod_receipts/OMN-1/dod-1/command.yaml"] ∧
      checkDiffConsistency plainDiff.toGateInterpreter
        (attestingReceipt [.netNewOnly, .receiptsUnmodified])
        (parseNameStatus (nameStatusText
          [.typeChanged "drift/dod_receipts/OMN-1/dod-1/command.yaml"])) none = [] ∧
      ∀ a ∈ [EnumDiffAttestation.netNewOnly, .receiptsUnmodified],
        ¬ a.Holds "OMN-1" (singleFile "drift/dod_receipts/OMN-1/dod-1/command.yaml" .regular)
          (singleFile "drift/dod_receipts/OMN-1/dod-1/command.yaml" .symlink)) := by
  have hmoved : ∀ a : EnumDiffAttestation, a.Covers "OMN-1" "contracts/OMN-1.yaml" →
      ¬ a.Holds "OMN-1" (singleFile "contracts/OMN-1.yaml" .regular)
        (singleFile "archive/OMN-1.yaml" .regular) := by
    intro a hcovers hholds
    have hhead := hholds _ _ (if_pos rfl) hcovers
    exact absurd hhead (by decide)
  have hlink : ∀ a : EnumDiffAttestation,
      a.Covers "OMN-1" "drift/dod_receipts/OMN-1/dod-1/command.yaml" →
      ¬ a.Holds "OMN-1" (singleFile "drift/dod_receipts/OMN-1/dod-1/command.yaml" .regular)
        (singleFile "drift/dod_receipts/OMN-1/dod-1/command.yaml" .symlink) := by
    intro a hcovers hholds
    have hhead := hholds _ _ (if_pos rfl) hcovers
    exact absurd hhead (by decide)
  refine ⟨⟨describes_renamed (by decide), by decide +kernel, fun a ha => hmoved a ?_⟩,
    describes_typeChanged _, by decide +kernel, fun a ha => hlink a ?_⟩
  · rcases List.mem_cons.mp ha with rfl | ha
    · exact Or.inr (by decide)
    · rw [List.mem_singleton.mp ha]
      exact rfl
  · rcases List.mem_cons.mp ha with rfl | ha
    · exact Or.inl (by decide)
    · rw [List.mem_singleton.mp ha]
      show startsWith receiptPrefix "drift/dod_receipts/OMN-1/dod-1/command.yaml" = true
      decide

end OmnibaseCore.Receipts
