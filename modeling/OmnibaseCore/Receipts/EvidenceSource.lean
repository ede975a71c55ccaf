import OmnibaseCore.Python.Affix
import OmnibaseCore.Python.Lines
import OmnibaseCore.Python.Scan
import OmnibaseCore.Regex.Flags

/-!
# The evidence stamp

`strip_noncanonical_regions` blanks out fenced code and quotations in the body of a pull request,
line by line; `parse_evidence_source` and `classify_evidence_source_stamp` read what is left.
-/

namespace OmnibaseCore.Receipts

open Regex

structure BodyInterpreter extends TextInterpreter where
  /-- `s.casefold()` -/
  casefold : String → String

/-! ## Regions -/

def fenceLinePattern : Regex :=
  seq start (seq (star (chars isSpace))
    (group "1" (alt (atLeast (char '`') 3) (atLeast (char '~') 3))))

/-- `fence.group(1)[0]`. -/
def markerChar (line : String) : Option Char :=
  (fenceLinePattern.matchPrefix line).bind fun fence =>
    (fence.group "1").bind fun marker => marker.toList.head?

/-- `line.lstrip().startswith(">")`. -/
def isBlockquote (line : String) : Bool := (line.toList.dropWhile isSpace).head? = some '>'

/-- `in_fence` and `fence_char`. -/
structure FenceState where
  inFence : Bool
  fenceChar : Option Char

def FenceState.initial : FenceState := { inFence := false, fenceChar := none }

def FenceState.next (state : FenceState) (line : String) : FenceState :=
  match markerChar line with
  | none => state
  | some markerChar =>
    if !state.inFence then { inFence := true, fenceChar := some markerChar }
    else if some markerChar = state.fenceChar then { inFence := false, fenceChar := none }
    else state

def FenceState.output (state : FenceState) (line : String) : String :=
  match markerChar line with
  | some _ => ""
  | none => if state.inFence then "" else if isBlockquote line then "" else line

/-- The lines that are left of a list of lines, with empty lines for the others. -/
def strippedLines (lines : List String) : List String :=
  (Scan.trace FenceState.next .initial lines).map fun e => e.1.output e.2

def stripNoncanonicalRegions (prBody : String) : String :=
  "\n".intercalate (strippedLines (splitlines prBody))

/-! ## Stamps -/

/-- The inside of `EVIDENCE_SOURCE_OCC_PR_PATTERN`. -/
def evidenceSourceOccPrPattern (i : TextInterpreter) : Regex :=
  seq (textIgnoreCase "Evidence-Source: OCC#") (group "1" (plus (chars i.isDecimal)))

/-- The inside of `EVIDENCE_SOURCE_SHA_PATTERN`. -/
def evidenceSourceShaPattern : Regex :=
  seq (textIgnoreCase "Evidence-Source: ") (group "1" (seq (times hexDigit 7) (upTo hexDigit 33)))

/-- `[^\r\n]` -/
def notLineEnd : Regex := chars fun c => c ≠ '\r' && c ≠ '\n'

/-- The inside of `EVIDENCE_SOURCE_LINE_PATTERN`. -/
def evidenceSourceLinePattern : Regex :=
  seq (textIgnoreCase "Evidence-Source:") (group "value" (star notLineEnd))

/-- The inside of `EVIDENCE_SOURCE_VALUE_PATTERN`. -/
def evidenceSourceValuePattern : Regex :=
  seq (textIgnoreCase "Evidence-Source: ") (group "1" (plus notLineEnd))

def evidenceSourceDisclaimerTokens : List String := ["n/a", "none", "-"]

def evidenceSourceOccTokenPattern : Regex :=
  seq (textIgnoreCase "OCC") (seq (star (chars isSpace)) (char '#'))

/-- The inside of `EVIDENCE_SOURCE_BARE_REF_PATTERN`. -/
def evidenceSourceBareRefPattern (i : TextInterpreter) : Regex :=
  alt (seq (char '#') (plus (chars i.isDecimal))) (atLeast hexDigit 6)

/-- `s.strip(chars)`. -/
def stripChars (chars s : String) : String :=
  let isChar := fun c => decide (c ∈ chars.toList)
  String.ofList (((s.toList.dropWhile isChar).reverse.dropWhile isChar).reverse)

/-- `line.lower().startswith("evidence-source:")`. -/
def isStampLine (i : TextInterpreter) (line : String) : Bool :=
  startsWith "evidence-source:" (i.lower line)

/-- What a line of the stamp refers to: a pull request by number, or a commit. -/
def sourceOf (i : TextInterpreter) (line : String) : Option String × Option String :=
  match (evidenceSourceOccPrPattern i).fullmatch line with
  | some mPr => (mPr.group "1", none)
  | none =>
    match evidenceSourceShaPattern.fullmatch line with
    | some mSha => (none, mSha.group "1")
    | none => (none, none)

/-- `parse_evidence_source`. Only the first stamp counts. -/
def parseEvidenceSource (i : TextInterpreter) (prBody : String) :
    Option String × Option String :=
  match (splitlines (stripNoncanonicalRegions prBody)).find? (isStampLine i) with
  | none => (none, none)
  | some line => sourceOf i line

/-- What `classify_evidence_source_stamp` returns. -/
structure StampClass where
  attempted : Bool
  isDisclaimer : Bool
  value : Option String

def classifyValue (i : BodyInterpreter) (value : String) : StampClass :=
  if i.casefold value ∈ evidenceSourceDisclaimerTokens then
    { attempted := true, isDisclaimer := true, value := some value }
  else if evidenceSourceOccTokenPattern.search value then
    { attempted := true, isDisclaimer := false, value := some value }
  else
    let leadingToken := stripChars "(),.;:" ((words value).headD "")
    if ((evidenceSourceBareRefPattern i.toTextInterpreter).fullmatch leadingToken).isSome then
      { attempted := true, isDisclaimer := false, value := some value }
    else { attempted := true, isDisclaimer := true, value := some value }

def classifyEvidenceSourceStamp (i : BodyInterpreter) (prBody : String) : StampClass :=
  let canonicalBody := stripNoncanonicalRegions prBody
  match evidenceSourceLinePattern.searchLine canonicalBody with
  | none => { attempted := false, isDisclaimer := false, value := none }
  | some lineMatch =>
    let rawValue := (lineMatch.group "value").getD ""
    let malformed := { attempted := true, isDisclaimer := false, value := some (strip rawValue) }
    if !startsWith " " rawValue then malformed
    else if startsWith "  " rawValue || startsWith "\t" rawValue then malformed
    else
      match evidenceSourceValuePattern.searchLine canonicalBody with
      | none => malformed
      | some m => classifyValue i (strip ((m.group "1").getD ""))

end OmnibaseCore.Receipts
