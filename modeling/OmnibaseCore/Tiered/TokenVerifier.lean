import OmnibaseCore.Tiered.Model

/-!
# The token verifier

`ServiceCapabilityTokenVerifier`: a token is checked against the trust root of its issuer.
-/

namespace OmnibaseCore.Tiered

open Capability

/-- What the tiered resolver takes from the interpreter and from cryptography, beyond what the
resolver takes. -/
structure TieredInterpreter extends ResolverInterpreter where
  /-- `repr` of a list of texts -/
  reprStrs : List String → String
  isoformat : Datetime → String
  urlsafeB64decode : String → Option (List UInt8)
  /-- `verify`, by public key, data and signature -/
  ed25519Verify : List UInt8 → String → List UInt8 → Bool
  /-- `hash_bytes(text.encode("utf-8"))` -/
  blake3 : String → String
  /-- `datetime.now(UTC)`, by the turn of the loop and the number of readings in it. Reading `0`
  is for the binding. -/
  clock : ℕ → ℕ → ℤ

/-- `ServiceCapabilityTokenVerifier`, with its provider of keys. -/
structure ServiceCapabilityTokenVerifier where
  getDomainTrustRoot : String → Option (List UInt8)

def buildSigningPayload (i : TieredInterpreter) (token : ModelCapabilityToken) :
    Except PyException String :=
  Json.dumps (StrictJsonPrimitive.text i.floatRepr) .compact (.dict [
    ("token_id", textDump token.tokenId.str),
    ("subject_node_id", textDump token.subjectNodeId),
    ("issuer_domain", textDump token.issuerDomain),
    ("capabilities", .list ((sortedAsc id token.capabilities).map textDump)),
    ("issued_at", textDump (i.isoformat token.issuedAt)),
    ("expires_at", textDump (i.isoformat token.expiresAt)),
    ("issuer_public_key", textDump token.issuerPublicKey)])

def verifyBase64 (i : TieredInterpreter) (publicKey : List UInt8) (data signature : String) :
    Bool :=
  match i.urlsafeB64decode signature with
  | none => false
  | some signature => i.ed25519Verify publicKey data signature

def failureProof (token : ModelCapabilityToken) (now : ℤ) (notes : String) :
    ModelResolutionProof where
  verified := false
  verificationNotes := notes
  token := some token
  verifiedAt := some now

/-- The comparison of a `datetime` with one in UTC needs its instant. -/
def comparable (d : Datetime) : Except PyException ℤ :=
  match d.instant with
  | none => .error (.typeError "can't compare offset-naive and offset-aware datetimes")
  | some t => .ok t

/-- Steps 2 to 6 of `verify_token`. -/
def verifyCurrentToken (i : TieredInterpreter) (verifier : ServiceCapabilityTokenVerifier)
    (now : ℤ) (token : ModelCapabilityToken) (requiredCapability : String) :
    Except PyException ModelResolutionProof :=
  match verifier.getDomainTrustRoot token.issuerDomain with
  | none => .ok (failureProof token now
      ("No trust root found for issuer domain '" ++ token.issuerDomain ++ "'"))
  | some trustRoot =>
    match i.urlsafeB64decode token.issuerPublicKey with
    | none => .ok (failureProof token now "Invalid base64 encoding for issuer_public_key")
    | some issuerKey =>
      if issuerKey ≠ trustRoot then
        .ok (failureProof token now ("Token issuer key does not match trust root for domain '" ++
          token.issuerDomain ++ "'"))
      else do
        let payload ← buildSigningPayload i token
        if !verifyBase64 i trustRoot payload token.signature then
          return failureProof token now "Ed25519 signature verification failed"
        else if requiredCapability ∉ token.capabilities then
          return failureProof token now ("Token does not attest capability '" ++
            requiredCapability ++ "'; attested: " ++ i.reprStrs token.capabilities)
        else
          return {
            verified := true
            verificationNotes := "Token " ++ token.tokenId.str ++ " verified for capability '" ++
              requiredCapability ++ "' issued by '" ++ token.issuerDomain ++ "'"
            token := some token
            verifiedAt := some now }

def verifyToken (i : TieredInterpreter) (verifier : ServiceCapabilityTokenVerifier) (now : ℤ)
    (token : ModelCapabilityToken) (requiredCapability : String) :
    Except PyException ModelResolutionProof := do
  let expiresAt ← comparable token.expiresAt
  if expiresAt ≤ now then
    return failureProof token now ("Token expired at " ++ i.isoformat token.expiresAt)
  else
    let issuedAt ← comparable token.issuedAt
    if now < issuedAt then
      return failureProof token now ("Token issued_at " ++ i.isoformat token.issuedAt ++
        " is in the future")
    else
      verifyCurrentToken i verifier now token requiredCapability

/-! ## What a verified token is -/

theorem comparable_eq_ok_iff {d : Datetime} {t : ℤ} : comparable d = .ok t ↔ d.instant = some t := by
  unfold comparable
  cases d.instant <;> simp

theorem comparable_of_naive {d : Datetime} (h : d.instant = none) : comparable d
    = .error (.typeError "can't compare offset-naive and offset-aware datetimes") := by
  unfold comparable
  rw [h]

/-- A token is current, from the trust root of its issuer, signed, and for a capability. -/
structure Attests (i : TieredInterpreter) (verifier : ServiceCapabilityTokenVerifier) (now : ℤ)
    (token : ModelCapabilityToken) (requiredCapability : String) : Prop where
  notExpired : ∃ t, token.expiresAt.instant = some t ∧ now < t
  issued : ∃ t, token.issuedAt.instant = some t ∧ t ≤ now
  signed : ∃ key payload, verifier.getDomainTrustRoot token.issuerDomain = some key ∧
    i.urlsafeB64decode token.issuerPublicKey = some key ∧
    buildSigningPayload i token = .ok payload ∧
    verifyBase64 i key payload token.signature = true
  capability : requiredCapability ∈ token.capabilities

section
variable {i : TieredInterpreter} {verifier : ServiceCapabilityTokenVerifier} {now : ℤ}
  {token : ModelCapabilityToken} {requiredCapability : String}

theorem exists_signingPayload : ∃ payload, buildSigningPayload i token = .ok payload := by
  apply Json.exists_dumps
  simp [textDump, StrictJsonPrimitive.text]

theorem verifyCurrentToken_verified_iff :
    (∃ proof, verifyCurrentToken i verifier now token requiredCapability = .ok proof ∧
        proof.verified = true) ↔
      (∃ key payload, verifier.getDomainTrustRoot token.issuerDomain = some key ∧
        i.urlsafeB64decode token.issuerPublicKey = some key ∧
        buildSigningPayload i token = .ok payload ∧
        verifyBase64 i key payload token.signature = true) ∧
      requiredCapability ∈ token.capabilities := by
  unfold verifyCurrentToken
  cases hroot : verifier.getDomainTrustRoot token.issuerDomain with
  | none => simp [failureProof]
  | some trustRoot =>
    cases hkey : i.urlsafeB64decode token.issuerPublicKey with
    | none => simp [failureProof]
    | some issuerKey =>
      by_cases hne : issuerKey = trustRoot
      · obtain ⟨payload, hpayload⟩ := @exists_signingPayload i token
        subst hne
        simp only [ne_eq, not_true_eq_false, if_false, hpayload]
        by_cases hsigned : verifyBase64 i issuerKey payload token.signature = true
        · by_cases hcapability : requiredCapability ∈ token.capabilities <;>
            simp [hsigned, hcapability, failureProof, bind, Except.bind, pure, Except.pure]
        · simp [hsigned, failureProof, bind, Except.bind, pure, Except.pure]
      · simp [hne, failureProof]

/-- A token is verified if and only if it attests the capability. -/
theorem verifyToken_verified_iff :
    (∃ proof, verifyToken i verifier now token requiredCapability = .ok proof ∧
        proof.verified = true) ↔
      Attests i verifier now token requiredCapability := by
  unfold verifyToken
  cases hexpires : token.expiresAt.instant with
  | none =>
    rw [comparable_of_naive hexpires]
    refine iff_of_false (fun ⟨_, h, _⟩ => nomatch h) fun h => ?_
    obtain ⟨t, ht, -⟩ := h.notExpired
    rw [hexpires] at ht
    exact nomatch ht
  | some expiresAt =>
    rw [comparable_eq_ok_iff.mpr hexpires]
    show (∃ proof, (if expiresAt ≤ now then _ else _) = _ ∧ _) ↔ _
    by_cases hexpired : expiresAt ≤ now
    · rw [if_pos hexpired]
      refine iff_of_false ?_ fun h => ?_
      · intro ⟨proof, hproof, hverified⟩
        cases hproof
        exact nomatch hverified
      · obtain ⟨t, ht, hlt⟩ := h.notExpired
        rw [hexpires, Option.some.injEq] at ht
        omega
    · rw [if_neg hexpired]
      cases hissued : token.issuedAt.instant with
      | none =>
        rw [comparable_of_naive hissued]
        refine iff_of_false (fun ⟨_, h, _⟩ => nomatch h) fun h => ?_
        obtain ⟨t, ht, -⟩ := h.issued
        rw [hissued] at ht
        exact nomatch ht
      | some issuedAt =>
        rw [comparable_eq_ok_iff.mpr hissued]
        show (∃ proof, (if now < issuedAt then _ else _) = _ ∧ _) ↔ _
        by_cases hfuture : now < issuedAt
        · rw [if_pos hfuture]
          refine iff_of_false ?_ fun h => ?_
          · intro ⟨proof, hproof, hverified⟩
            cases hproof
            exact nomatch hverified
          · obtain ⟨t, ht, hle⟩ := h.issued
            rw [hissued, Option.some.injEq] at ht
            omega
        · rw [if_neg hfuture, verifyCurrentToken_verified_iff]
          constructor
          · intro ⟨hsigned, hcapability⟩
            exact ⟨⟨expiresAt, hexpires, by omega⟩, ⟨issuedAt, hissued, by omega⟩, hsigned,
              hcapability⟩
          · intro h
            exact ⟨h.signed, h.capability⟩

end

end OmnibaseCore.Tiered
