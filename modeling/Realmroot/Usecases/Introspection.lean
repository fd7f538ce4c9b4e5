import Realmroot.Repos.Memberships
import Realmroot.Usecases.DelegatedExchange

/-!
# Introspection

What a client is told about an access token of an exchange. The stored row is read by the hash of
the token, and a signed token is verified again and compared with the row.
-/

namespace Realmroot

open AtomicProgram Error

def subjectClaimsMember : String := "urn:realmroot:params:oauth:token-exchange:subject-claims"

def opaqueAccessTokenPrefix : String := "fatx_"

/-- `left === right`: two objects are the same only by reference. -/
def strictlyEqual : Option Json → Option Json → Bool
  | some (.obj _), _ => false
  | some (.arr _), _ => false
  | left, right => left = right

/-- `tokenExchangeJwtMatches`. -/
def tokenExchangeJwtMatches (payload : Record) (row : TokenExchangeAccessToken)
    (issuer : String) : Bool :=
  payload.field "iss" = some (.str issuer) && payload.field "sub" = some (.str row.subject) &&
    payload.field "aud" = some (.str row.audience) &&
    payload.field "client_id" = some (.str row.clientId) &&
    payload.field "scope" = some (.str (joinWithSpace row.scopes)) &&
    payload.field "exp" = some (.num (toSeconds row.expiresAt)) &&
    (payload.field "act").isNone &&
    strictlyEqual (payload.field realmrootOrganizationClaim)
      (row.claims.field realmrootOrganizationClaim)

def inactiveResponse : Record := [("active", .bool false)]

/-- The answer about an opaque token, from its row. -/
def opaqueResponse (issuer : String) (row : TokenExchangeAccessToken) : Record :=
  [("active", .bool true), ("iss", .str issuer), ("sub", .str row.subject),
    ("aud", .str row.audience), ("client_id", .str row.clientId),
    ("scope", .str (joinWithSpace row.scopes)), ("exp", .num (toSeconds row.expiresAt)),
    ("iat", .num (toSeconds row.createdAt)), ("token_type", .str "Bearer"),
    (subjectClaimsMember, .obj row.claims)]

/-- The answer about a signed token that was verified and that its row matches. -/
def signedResponse (verified : Option Record) (row : TokenExchangeAccessToken)
    (issuer : String) : Record :=
  match verified.filter fun payload => tokenExchangeJwtMatches payload row issuer with
  | some payload => payload.spread [("active", .bool true), ("token_type", .str "Bearer")]
  | none => inactiveResponse

/-- `introspectToken`, with the verifier as it is at each time. -/
def introspectToken [Platform] (token : String) (credentials : ClientCredentials)
    (issuer : String) (verifier : Time → TokenExchangeJwtVerifier) : Request Record := do
  let _ ← authenticateApplicationClient credentials
  let row ← query (·.findAccessTokenByHash (Platform.hashProviderSecret token))
  let now ← currentTime
  match row.filter fun row =>
      row.clientId = credentials.clientId && row.revokedAt.isNone && now < row.expiresAt with
  | none => .pure inactiveResponse
  | some row =>
    if opaqueAccessTokenPrefix.toList.isPrefixOf token.toList then
      .pure (opaqueResponse issuer row)
    else do
      let now ← currentTime
      .pure (signedResponse ((verifier now).verify token issuer row.audience) row issuer)

end Realmroot
