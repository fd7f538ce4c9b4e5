import Realmroot.Json

/-!
# The platform

Times, errors, and the functions that come from outside the repository: the
identifier generator, the hash functions, the locale's string order, the printing
of numbers, the decoding of tokens, the opening of stored secrets, the URL parser and the
integers of the schema validator. An identifier is not empty and never generated twice, and an
integer that a schema accepts is a safe one; nothing else is assumed of these functions.
-/

namespace Realmroot

/-- Milliseconds since the epoch, as `Date.getTime()`. -/
abbrev Time := ℕ

/-- `Math.floor(time / 1000)`. -/
def toSeconds (time : Time) : ℕ := time / 1000

inductive ErrorCode where
  | badRequest
  | unauthorized
  | forbidden
  | notFound
  | conflict
  | resourceInUse
  | preconditionFailed
  | preconditionRequired
  | badGateway
  | payloadTooLarge
  | internalError
  deriving DecidableEq, Repr

/-- `ApiError`, `OAuthError`, a plain `Error`, and a statement that the database
refuses because of the named index. -/
inductive Error where
  | api (status : ℕ) (code : ErrorCode) (message : String)
  | oauth (status : ℕ) (error : String) (errorDescription : String)
  | internal (message : String)
  | constraint (name : String)
  deriving DecidableEq, Repr

namespace Error

def badRequest (message : String) : Error := .api 400 .badRequest message

def unauthorized (message : String) : Error := .api 401 .unauthorized message

def forbidden (message : String) : Error := .api 403 .forbidden message

def notFound (message : String) : Error := .api 404 .notFound message

def conflict (message : String) : Error := .api 409 .conflict message

def badGateway (message : String) : Error := .api 502 .badGateway message

/-- `oauthError(error, description, status = 400)`. -/
def oauthError (error description : String) (status : ℕ := 400) : Error :=
  .oauth status error description

end Error

/-- The parts of a URL that the source reads and sets. -/
structure Url where
  protocol : String
  username : String
  password : String
  hostname : String
  pathname : String
  search : String
  hash : String
  deriving DecidableEq

/-- `Number.MAX_SAFE_INTEGER`. -/
def maxSafeInteger : ℕ := 9007199254740991

class Platform where
  generateId : ℕ → String
  /-- The SHA-256 digest, encoded without padding. -/
  sha256 : String → String
  /-- The digest under which client secrets and tokens are stored. -/
  hashProviderSecret : String → String
  /-- `a.localeCompare(b) <= 0`. -/
  localeLe : String → String → Bool
  numberToString : ℚ → String
  /-- `value.toLowerCase()`. -/
  toLowerCase : String → String
  base64UrlDecode : String → Option (List UInt8)
  /-- The JSON value of a base64url-encoded part of a token. -/
  readJsonPart : String → Option Json
  /-- The plaintext of a sealed secret under its context, or `none` when it does not open. -/
  openSecret : String → String → Option String
  /-- `JSON.parse`, or `none` when it throws. -/
  parseJson : String → Option Json
  /-- `new URL(value)`, or `none` when it throws. -/
  parseUrl : String → Option Url
  /-- `url.toString()`. -/
  printUrl : Url → String
  /-- `new URL(value, base).toString()`, or `none` when it throws. -/
  resolveUrl : String → String → Option String := fun _ _ => none
  /-- `value.toUpperCase()`. -/
  toUpperCase : String → String := id
  /-- The SHA-256 digest in hexadecimal. -/
  sha256Hex : String → String := id
  /-- The HMAC-SHA-256 of a message under a secret, in hexadecimal. -/
  hmacSha256Hex : String → String → String := fun secret message => secret ++ message
  /-- `new TextDecoder().decode`. -/
  decodeText : List UInt8 → String := fun _ => ""
  /-- `importJWK(key, 'EdDSA')` does not throw. -/
  importsJwk : Record → Bool := fun _ => true
  /-- `z.number().int()` accepts the integer. -/
  acceptsInteger : ℕ → Bool := fun n => n ≤ maxSafeInteger
  generateId_injective : Function.Injective generateId
  generateId_ne_empty : ∀ n, generateId n ≠ ""
  acceptsInteger_le : ∀ n, acceptsInteger n = true → n ≤ maxSafeInteger := by
    intro n h
    simpa using h

theorem Platform.generateId_inj [Platform] {m n : ℕ} :
    Platform.generateId m = Platform.generateId n ↔ m = n :=
  Platform.generateId_injective.eq_iff

/-- A platform for runs on fixed inputs: digests are the texts themselves. -/
@[reducible] def samplePlatform : Platform where
  generateId n := String.ofList (List.replicate (n + 1) 'i')
  sha256 := id
  hashProviderSecret := id
  localeLe a b := a ≤ b
  numberToString _ := ""
  toLowerCase := id
  base64UrlDecode _ := none
  readJsonPart _ := none
  openSecret _ _ := none
  parseJson _ := none
  parseUrl _ := none
  printUrl _ := ""
  generateId_injective m n h := by
    have hlength := congrArg String.length h
    simpa using hlength
  generateId_ne_empty n h := by
    have hlength := congrArg String.length h
    simp at hlength

end Realmroot
