import Realmroot.World
import Mathlib.Data.Rat.Floor

/-!
# Proofs of possession

The checks on a proof that is presented with a token request or with a request to a resource. The
last of them records the identifier of the proof, so that the proof is not accepted again.
-/

namespace Realmroot

open AtomicProgram Error

/-- The functions on tokens and keys that come from outside. -/
class Jose where
  /-- `decodeProtectedHeader`, or `none` when it throws. -/
  decodeProtectedHeader : String → Option Record
  /-- The payload of a proof whose signature the key verifies, or `none` when the key is not
  imported, the signature is wrong, or the payload is not a JSON object. -/
  verifiedPayload : String → Record → String → Option Record
  /-- `calculateJwkThumbprint`. -/
  calculateJwkThumbprint : Record → String

namespace Dpop

variable [Platform] [Jose]

/-- The algorithm of a header, when it is supported and the key is one for it. -/
def supportedAlgorithm (header jwk : Record) : Option String :=
  if header.field "alg" = some (.str "ES256") ∧ jwk.field "kty" = some (.str "EC") ∧
      jwk.field "crv" = some (.str "P-256") then some "ES256"
  else if header.field "alg" = some (.str "EdDSA") ∧ jwk.field "kty" = some (.str "OKP") ∧
      jwk.field "crv" = some (.str "Ed25519") then some "EdDSA"
  else none

/-- The type of a header, in lower case, is the one of proofs. -/
def isProofHeader (header : Record) : Bool :=
  match header.field "typ" with
  | some (.str typ) => Platform.toLowerCase typ = "dpop+jwt"
  | _ => false

/-- A proof that is verified: its key and its payload. -/
structure VerifiedProof where
  jwk : Record
  payload : Record

/-- `verifyDpopProof`. -/
def verifyDpopProof (proof : String) : Except Error VerifiedProof :=
  match Jose.decodeProtectedHeader proof with
  | none => .error (badRequest "DPoP proof is malformed.")
  | some header =>
    match readRecord (header.field "jwk") with
    | none => .error (badRequest "A public-key DPoP proof is required.")
    | some jwk =>
      match supportedAlgorithm header jwk with
      | none => .error (badRequest "A public-key DPoP proof is required.")
      | some alg =>
        if ¬ isProofHeader header ∨ (jwk.field "d").isSome then
          .error (badRequest "A public-key DPoP proof is required.")
        else
          match Jose.verifiedPayload proof jwk alg with
          | none => .error (badRequest "DPoP proof signature is invalid.")
          | some payload => .ok { jwk := jwk, payload := payload }

/-- The URL without its fragment and its query. -/
def proofTarget (url : String) : Option String :=
  (Platform.parseUrl url).map fun target =>
    Platform.printUrl { target with hash := "", search := "" }

/-- `new Date(seconds * 1000)`: a date has no fractions of a millisecond. -/
def dateOfSeconds (seconds : ℚ) : Time := ⌊seconds * 1000⌋.toNat

/-- A statement that a constraint refuses. -/
def isConstraint : Error → Bool
  | .constraint _ => true
  | _ => false

/-- `consumeJti`. -/
def consumeJti (row : AgentDpopJti) : Request Bool :=
  ((perform (.consumeJti row) (Database.insertJti row)).bind fun _ => .pure true).tryCatch
    fun error => if isConstraint error then .pure false else .throw error

/-- What is left of `consumeProof` when the proof has an identifier and a time. -/
def consumeTimedProof (jti : String) (iat : ℚ) (keyThumbprint : String) : Request Unit := do
  let now ← currentTime
  throwIf (300 < |(now : ℚ) / 1000 - iat|)
    (badRequest "DPoP proof is outside the accepted time window.")
  let createdAt ← currentTime
  let consumed ← consumeJti
    { jtiHash := Platform.sha256 jti, keyThumbprint := keyThumbprint
      expiresAt := dateOfSeconds (iat + 300), createdAt := createdAt }
  throwIf (consumed = false) (badRequest "DPoP proof was already used.")

/-- `consumeProof`. -/
def consumeProof (payload : Record) (keyThumbprint : String) : Request Unit :=
  match payload.field "jti", payload.field "iat" with
  | some (.str jti), some (.num iat) => consumeTimedProof jti iat keyThumbprint
  | some (.str _), _ => .throw (badRequest "DPoP proof is outside the accepted time window.")
  | _, _ => .throw (badRequest "DPoP proof has no JWT identifier.")

/-- A string field of a payload. -/
def isString : Option Json → Bool
  | some (.str _) => true
  | _ => false

/-- `validateDpopTokenProof`. -/
def validateDpopTokenProof (proof tokenEndpoint : String) : Request String := do
  let verified ← ofResult (verifyDpopProof proof)
  let target ← orThrow (.internal "Invalid URL") (proofTarget tokenEndpoint)
  throwIf (verified.payload.field "htm" ≠ some (.str "POST") ∨
      verified.payload.field "htu" ≠ some (.str target) ∨
        isString (verified.payload.field "jti") = false)
    (badRequest "DPoP proof is not bound to the target token endpoint.")
  let thumbprint := Jose.calculateJwkThumbprint verified.jwk
  (consumeProof verified.payload thumbprint).bind fun _ => .pure thumbprint

/-- What `validateDpopResourceProof` is given. -/
structure DpopResourceProof where
  proof : String
  accessToken : String
  method : String
  url : String
  confirmationJkt : String

/-- `validateDpopResourceProof`. -/
def validateDpopResourceProof (input : DpopResourceProof) : Request Unit := do
  let verified ← ofResult (verifyDpopProof input.proof)
  let thumbprint := Jose.calculateJwkThumbprint verified.jwk
  throwIf (thumbprint ≠ input.confirmationJkt)
    (unauthorized "DPoP proof key does not match the access token.")
  let target ← orThrow (.internal "Invalid URL") (proofTarget input.url)
  throwIf (verified.payload.field "htm" ≠ some (.str input.method.toUpper) ∨
      verified.payload.field "htu" ≠ some (.str target))
    (unauthorized "DPoP proof is not bound to this request.")
  throwIf (verified.payload.field "ath" ≠ some (.str (Platform.sha256 input.accessToken)))
    (unauthorized "DPoP proof is not bound to the access token.")
  consumeProof verified.payload thumbprint

end Dpop
end Realmroot
