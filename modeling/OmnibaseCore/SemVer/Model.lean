import OmnibaseCore.Python.Basic
import OmnibaseCore.Python.Text
import OmnibaseCore.Regex.Basic

/-!
# Semantic versions

`ModelSemVer`: its validators, its text, and `parse_semver_from_string`. The constructor checks
one identifier at a time; the parser has one pattern for the whole text. The text of a number
is limited to `intMaxStrDigits` digits, as the interpreter does by default.
-/

namespace OmnibaseCore.SemVer

/-! ## Integers and their text -/

/-- `sys.get_int_max_str_digits()`. -/
def intMaxStrDigits : ℕ := 4300

/-- `str(n)`. -/
def intStr (n : ℤ) : Except PyException String :=
  if intMaxStrDigits < (toString n.natAbs).length then
    .error (.valueError ("Exceeds the limit (" ++ toString intMaxStrDigits ++
      " digits) for integer string conversion; use sys.set_int_max_str_digits() to increase " ++
      "the limit"))
  else .ok (toString n)

/-- The number that digits of any script write. -/
def digitsValue (i : TextInterpreter) (ds : List Char) : ℕ :=
  ds.foldl (fun n d => 10 * n + (i.decimal d).getD 0) 0

/-- `int(s)` of digits, with space around them. -/
def intOfDigits (i : TextInterpreter) (s : String) : Except PyException ℤ :=
  let ds := (strip s).toList
  if intMaxStrDigits < ds.length then
    .error (.valueError ("Exceeds the limit (" ++ toString intMaxStrDigits ++
      " digits) for integer string conversion: value has " ++ toString ds.length ++
      " digits; use sys.set_int_max_str_digits() to increase the limit"))
  else .ok (digitsValue i ds)

/-! ## The model -/

inductive Identifier
  | int (n : ℤ)
  | str (s : String)
deriving DecidableEq

structure ModelSemVer where
  major : ℤ
  minor : ℤ
  patch : ℤ
  prerelease : Option (List Identifier)
  build : Option (List String)
deriving DecidableEq

/-- `[0-9a-zA-Z-]` -/
def isIdentifierChar (c : Char) : Bool := c.isAlphanum || c = '-'

/-- `[1-9]` -/
def isNonzeroDigit (c : Char) : Bool := c.isDigit && c ≠ '0'

/-- `[a-zA-Z-]` -/
def isNonDigit (c : Char) : Bool := c.isAlpha || c = '-'

/-- `[0-9a-zA-Z-]+` -/
def identifierRegex : Regex := .plus (.chars isIdentifierChar)

/-- `0|[1-9]\d*` -/
def numericRegex (i : TextInterpreter) : Regex :=
  .alt (.char '0') (.seq (.chars isNonzeroDigit) (.star (.chars i.isDecimal)))

def prereleaseNumericPattern (i : TextInterpreter) : Regex :=
  .seq .start (.seq (numericRegex i) .finish)

def prereleaseAlphanumericPattern : Regex := .seq .start (.seq identifierRegex .finish)

def numericWithLeadingZerosPattern (i : TextInterpreter) : Regex :=
  .seq .start (.seq (.char '0') (.seq (.plus (.chars i.isDecimal)) .finish))

def buildIdentifierPattern : Regex := .seq .start (.seq identifierRegex .finish)

def semverError (message : String) : PyException :=
  .modelOnexError { errorCode := .validationError, message := message, context := [] }

/-- The error of `_parse_prerelease_identifier` and of `validate_prerelease`. -/
def leadingZerosError (identifier : String) : PyException :=
  semverError ("Invalid prerelease identifier '" ++ identifier ++
    "': numeric identifiers must not have leading zeros")

def parsePrereleaseIdentifier (i : TextInterpreter) (identifier : String) :
    Except PyException Identifier :=
  if (numericWithLeadingZerosPattern i).accepts identifier then
    .error (leadingZerosError identifier)
  else if (prereleaseNumericPattern i).accepts identifier then
    (intOfDigits i identifier).map .int
  else .ok (.str identifier)

/-- The body of the loop of `validate_prerelease`. -/
def normalizeIdentifier (i : TextInterpreter) : Identifier → Except PyException Identifier
  | .int n =>
    if n < 0 then
      .error (semverError ("Numeric prerelease identifier cannot be negative: " ++ toString n))
    else .ok (.int n)
  | .str s =>
    if !prereleaseAlphanumericPattern.accepts s then
      .error (semverError ("Invalid prerelease identifier: " ++ s))
    else if (numericWithLeadingZerosPattern i).accepts s then
      .error (leadingZerosError s)
    else if (prereleaseNumericPattern i).accepts s then
      (intOfDigits i s).map .int
    else .ok (.str s)

def validatePrerelease (i : TextInterpreter) :
    Option (List Identifier) → Except PyException (Option (List Identifier))
  | none => .ok none
  | some [] => .ok none
  | some v => (v.mapM (normalizeIdentifier i)).map some

def validateBuild : Option (List String) → Except PyException (Option (List String))
  | none => .ok none
  | some [] => .ok none
  | some v =>
    match v.find? fun identifier => !buildIdentifierPattern.accepts identifier with
    | some identifier => .error (semverError ("Invalid build metadata identifier: " ++ identifier))
    | none => .ok (some v)

/-- `ModelSemVer.model_validate`. What a validator raises leaves the constructor at once, but
for a `ValueError`, which becomes a `ValidationError` with the fields that are out of range. -/
def ModelSemVer.modelValidate (i : TextInterpreter) (major minor patch : ℤ)
    (prerelease : Option (List Identifier)) (build : Option (List String)) :
    Except PyException ModelSemVer :=
  let numbers := [("major", major), ("minor", minor), ("patch", patch)]
  let negative := (numbers.filter fun field => field.2 < 0).map Prod.fst
  let validationError := fun fields : List String =>
    PyException.validationError (i.validationText "ModelSemVer" fields)
  match validatePrerelease i prerelease, validateBuild build with
  | .error (.valueError _), .ok _ => .error (validationError (negative ++ ["prerelease"]))
  | .error (.valueError _), .error e => .error e
  | .error e, _ => .error e
  | .ok _, .error e => .error e
  | .ok prerelease, .ok build =>
    if negative ≠ [] then .error (validationError negative)
    else .ok { major, minor, patch, prerelease, build }

def ModelSemVer.Accepted (i : TextInterpreter) (v : ModelSemVer) : Prop :=
  ∃ major minor patch prerelease build,
    ModelSemVer.modelValidate i major minor patch prerelease build = .ok v

/-- `str(p)` of an identifier. -/
def Identifier.pyStr : Identifier → Except PyException String
  | .int n => intStr n
  | .str s => .ok s

def ModelSemVer.pyStr (v : ModelSemVer) : Except PyException String := do
  let major ← intStr v.major
  let minor ← intStr v.minor
  let patch ← intStr v.patch
  let prerelease ←
    match v.prerelease with
    | none | some [] => pure ""
    | some l => do
      let texts ← l.mapM Identifier.pyStr
      pure ("-" ++ ".".intercalate texts)
  let build :=
    match v.build with
    | none | some [] => ""
    | some l => "+" ++ ".".intercalate l
  return major ++ "." ++ minor ++ "." ++ patch ++ prerelease ++ build

def ModelSemVer.exactKey (v : ModelSemVer) :
    ℤ × ℤ × ℤ × Option (List Identifier) × Option (List String) :=
  (v.major, v.minor, v.patch, v.prerelease, v.build)

/-! ## Parsing -/

/-- An identifier of a prerelease in `_SEMVER_PATTERN`. -/
def prereleaseIdentifierRegex (i : TextInterpreter) : Regex :=
  .alt (numericRegex i)
    (.seq (.star (.chars i.isDecimal))
      (.seq (.chars isNonDigit) (.star (.chars isIdentifierChar))))

/-- `r(?:\.r)*` -/
def dotted (r : Regex) : Regex := .seq r (.star (.seq (.char '.') r))

def semverPattern (i : TextInterpreter) : Regex :=
  .seq .start <|
  .seq (.group "major" (numericRegex i)) <| .seq (.char '.') <|
  .seq (.group "minor" (numericRegex i)) <| .seq (.char '.') <|
  .seq (.group "patch" (numericRegex i)) <|
  .seq (.opt (.seq (.char '-') (.group "prerelease" (dotted (prereleaseIdentifierRegex i))))) <|
  .seq (.opt (.seq (.char '+') (.group "build" (dotted identifierRegex)))) <|
  .finish

def parseSemverFromString (i : TextInterpreter) (versionStr : String) :
    Except PyException ModelSemVer :=
  match (semverPattern i).matchPrefix versionStr with
  | none => .error (semverError ("Invalid semantic version format: " ++ versionStr))
  | some found => do
    let major ← intOfDigits i ((found.group "major").getD "")
    let minor ← intOfDigits i ((found.group "minor").getD "")
    let patch ← intOfDigits i ((found.group "patch").getD "")
    let prerelease ←
      match found.group "prerelease" with
      | none | some "" => pure none
      | some text => do
        let identifiers ← (splitAt '.' text).mapM (parsePrereleaseIdentifier i)
        pure (some identifiers)
    let build :=
      match found.group "build" with
      | none | some "" => none
      | some text => some (splitAt '.' text)
    ModelSemVer.modelValidate i major minor patch prerelease build

/-- The prerelease that the parser reads from a group. -/
def parsedPrerelease (i : TextInterpreter) (text : Option String) :
    Except PyException (Option (List Identifier)) :=
  if text.getD "" = "" then .ok none
  else ((splitAt '.' (text.getD "")).mapM (parsePrereleaseIdentifier i)).map some

/-- The build metadata that the parser reads from a group. -/
def parsedBuild (text : Option String) : Option (List String) :=
  if text.getD "" = "" then none else some (splitAt '.' (text.getD ""))

theorem parseSemverFromString_eq {i : TextInterpreter} {s : String} {found : Regex.Place}
    (h : (semverPattern i).matchPrefix s = some found) :
    parseSemverFromString i s = (do
      let major ← intOfDigits i ((found.group "major").getD "")
      let minor ← intOfDigits i ((found.group "minor").getD "")
      let patch ← intOfDigits i ((found.group "patch").getD "")
      let prerelease ← parsedPrerelease i (found.group "prerelease")
      ModelSemVer.modelValidate i major minor patch prerelease
        (parsedBuild (found.group "build"))) := by
  have hbuild : ∀ text : Option String, (match text with
      | none | some "" => none
      | some text => some (splitAt '.' text)) = parsedBuild text := by
    intro text
    unfold parsedBuild
    split
    · rfl
    · rfl
    · rename_i text hne
      rw [Option.getD_some, if_neg hne]
  unfold parseSemverFromString
  rw [h]
  dsimp only
  refine bind_congr fun major => bind_congr fun minor => bind_congr fun patch => ?_
  rw [hbuild]
  generalize found.group "prerelease" = text
  unfold parsedPrerelease
  split
  · rfl
  · rfl
  · rename_i text hne
    rw [Option.getD_some, if_neg hne]
    cases (splitAt '.' text).mapM (parsePrereleaseIdentifier i) <;> rfl

end OmnibaseCore.SemVer
