import Realmroot.AuthorizationDetails
import Realmroot.World

/-!
# External authorization servers

The requests that the use cases send to the authorization server of a connector,
what they read of its answers, and the authorization that a resource has at it.
-/

namespace Realmroot

open AtomicProgram Error

/-- `value.replace(/\/$/, '')`. -/
def withoutTrailingSlash (value : String) : String :=
  if value.toList.getLast? = some '/' then String.ofList value.toList.dropLast else value

/-! ## Reading answers -/

/-- The fields of a value that was read as a record; other values have none. -/
def fieldsOf : Json → Record
  | .obj fields => fields
  | _ => []

/-- `requiredString`. -/
def requiredString (value : Record) (field label : String) : Except Error String :=
  match readString (value.field field) with
  | some result => .ok result
  | none => .error (badRequest (label ++ " is missing " ++ field ++ "."))

/-- `readObject`. -/
def readObject (response : PeerResponse) (message : String) : Except Error Record :=
  match response.body with
  | some (.obj fields) => .ok fields
  | _ => .error (badRequest message)

/-- `tokenExpiry`. -/
def tokenExpiry (token : Record) (now : Time) : Option Time :=
  match token.field "expires_in" with
  | some (.num seconds) => if 0 < seconds then some (now + (seconds * 1000).floor.toNat) else none
  | _ => none

/-- `authorizationDetailSchema`: the trimmed type comes first. -/
def parseAuthorizationDetail : Json → Option AuthorizationDetail
  | .obj fields =>
    match Record.field fields "type" with
    | some (.str type) =>
      if trim type = "" then none
      else some (("type", .str (trim type)) :: fields.filter fun entry => entry.1 ≠ "type")
    | _ => none
  | _ => none

/-- `authorizationDetailsSchema.safeParse`. -/
def parseAuthorizationDetails : Option Json → Option (List AuthorizationDetail)
  | some (.arr entries) => entries.mapM parseAuthorizationDetail
  | _ => none

/-- The type of a detail that was parsed. -/
def detailType (detail : AuthorizationDetail) : String := (readString (detail.field "type")).getD ""

/-- `readAuthorizationDetails`. -/
def readAuthorizationDetails (value : Option Json) (required : Bool) (allowedTypes : List String)
    (label : String) : Except Error (List AuthorizationDetail) :=
  if value.isNone ∧ required = false then .ok []
  else
    match parseAuthorizationDetails value with
    | none => .error (invalidAuthorizationDetails (label ++ " has malformed authorization_details."))
    | some details =>
      if required ∧ details = [] then
        .error (invalidAuthorizationDetails (label ++ " has malformed authorization_details."))
      else if details.any fun detail => !allowedTypes.contains (detailType detail) then
        .error (invalidAuthorizationDetails
          (label ++ " contains an unknown authorization detail type."))
      else .ok details

/-- `validDpopNonce`. -/
def validDpopNonce (value : String) : Bool :=
  value ≠ "" && value.length ≤ 4096 && value.toList.all fun c =>
    c.toNat = 0x21 || (0x23 ≤ c.toNat && c.toNat ≤ 0x5b) || (0x5d ≤ c.toNat && c.toNat ≤ 0x7e)

structure OAuthErrorBody where
  error : String
  description : Option String
  detail : String
  deriving DecidableEq

/-- `readOAuthError`. -/
def readOAuthError [Platform] (response : PeerResponse) : Option OAuthErrorBody :=
  let body := (response.body.map fieldsOf).getD []
  let error :=
    match body.field "error", body.field "code" with
    | some (.str error), _ => error
    | _, some (.str code) => Platform.toLowerCase code
    | _, _ => ""
  let description :=
    match body.field "error_description", body.field "message" with
    | some (.str description), _ => some description
    | _, some (.str message) => some message
    | _, _ => none
  if error = "" then none
  else
    some
      { error := error, description := description
        detail := match truthy description with
          | some description => error ++ ": " ++ description
          | none => error }

/-! ## Requests -/

section Requests

variable [Platform]

/-- The error of a token request that the server rejects. -/
def tokenRequestError (preserveInvalidGrant : Bool) (response : PeerResponse) : Error :=
  match readOAuthError response with
  | none => unauthorized "External authorization server rejected the token request."
  | some provider =>
    if preserveInvalidGrant ∧ provider.error = "invalid_grant" then
      oauthError "invalid_grant" "Provider refresh token is no longer valid."
    else if provider.error = "use_dpop_nonce" then
      if response.dpopNonce.any validDpopNonce then
        oauthError provider.error
          (provider.description.getD "Authorization server requires nonce in DPoP proof.")
      else badGateway "External authorization server returned an invalid DPoP nonce challenge."
    else
      unauthorized ("External authorization server rejected the token request: " ++
        provider.detail ++ ".")

/-- `postForm`. -/
def postForm (url : String) (form : List (String × String)) (clientId clientSecret : String)
    (preserveInvalidGrant : Bool) (authentication : ClientAuthentication) : Request Record := do
  let reply ← fetchPeer
    { method := "POST", url := url, form := form
      authentication := .client authentication clientId clientSecret }
  let response ← orThrow (badGateway "External authorization server is unavailable.") reply
  throwIf (response.ok = false) (tokenRequestError preserveInvalidGrant response)
  throwIf (response.dpopNonce.any fun nonce => !validDpopNonce nonce)
    (badGateway "External authorization server returned an invalid DPoP nonce.")
  ofResult (readObject response "External authorization server response is invalid.")

/-- `postEmptyForm`. -/
def postEmptyForm (url : String) (form : List (String × String)) (clientId clientSecret : String)
    (authentication : ClientAuthentication := .basic) : Request Unit := do
  let reply ← fetchPeer
    { method := "POST", url := url, form := form
      authentication := .client authentication clientId clientSecret }
  let response ←
    orThrow (badGateway "External authorization server revocation is unavailable.") reply
  throwIf (response.ok = false)
    (unauthorized "External authorization server rejected the revocation request.")

/-- `secrets.open`. -/
def openSecret (envelope context : String) : Except Error String :=
  match Platform.openSecret envelope context with
  | some plaintext => .ok plaintext
  | none => .error (.internal "Encrypted secret envelope is invalid.")

/-! ## Authorizations -/

/-- `resolveExternalAuthorization` of a resource, after its connector is read. -/
def externalAuthorizationOf (resource : ApiResource) (clientGeneration : Option ℕ) :
    Request (Option ExternalResourceAuthorization) :=
  match truthy resource.connectorId with
  | none => .pure none
  | some connectorId =>
    if resource.authorizationModel ≠ .external then .pure none
    else do
      let connector ← query (·.findConnector connectorId)
      ofResult (resolveExternalAuthorization resource.id connector clientGeneration)

/-- `findExternalAuthorization`. -/
def findExternalAuthorization (resourceId : String) (clientGeneration : Option ℕ) :
    Request (Option ExternalResourceAuthorization) := do
  let resource ← query (·.findResource resourceId)
  match resource with
  | none => .pure none
  | some resource => externalAuthorizationOf resource clientGeneration

/-- `requireActiveConnectorAuthorization`. -/
def requireActiveConnectorAuthorization (resourceId : String) (clientGeneration : Option ℕ) :
    Request ExternalResourceAuthorization := do
  let authorization ← findExternalAuthorization resourceId clientGeneration
  orThrow (notFound "Active external API resource authorization was not found.")
    (authorization.filter fun authorization => authorization.status = .active)

/-- `externalOAuthAuthorization`. -/
def externalOAuthAuthorization (resource : ApiResource) (clientGeneration : Option ℕ) :
    Request (Option ExternalResourceAuthorization) :=
  if resource.authorizationModel ≠ .external then .pure none
  else do
    let current ← query (·.findResource resource.id)
    throwIf (current.all fun current => current.authorizationModel ≠ .external)
      (notFound "Active external API resource authorization was not found.")
    let authorization ← requireActiveConnectorAuthorization resource.id clientGeneration
    pure (some authorization)

/-- `requireEnabledResource`, which also resolves the current authorization. -/
def requireEnabledResource (resourceId : String) : Request ApiResource := do
  let found ← query (·.findResource resourceId)
  let resource ← orThrow (notFound "Enabled Resource Server was not found.")
    (found.filter fun resource => resource.enabled)
  let _ ← externalAuthorizationOf resource none
  pure resource

end Requests

/-! ## Connections -/

/-- `findConnection`: the credentials are read by a statement of their own. -/
def findConnection (id : String) : Request (Option ProviderResourceAuthorizationRecord) := do
  let row ← query (·.findAuthorizationRow id)
  match row with
  | none => .pure none
  | some (authorization, connection) => do
    let credentials ← query (·.listCredentials authorization.id)
    pure (some (toProviderResourceAuthorization authorization connection credentials))

/-- The connection that a request names, if it names one. -/
def findConnectionWhen (id : Option String) :
    Request (Option ProviderResourceAuthorizationRecord) :=
  match truthy id with
  | some id => findConnection id
  | none => .pure none

/-- `findConnectionByProviderResource`. -/
def findConnectionByProviderResource (providerConnectionId resourceId : String) :
    Request (Option ProviderResourceAuthorizationRecord) := do
  let row ← query (·.findAuthorizationRowByProvider providerConnectionId resourceId)
  match row with
  | none => .pure none
  | some (authorization, connection) => do
    let credentials ← query (·.listCredentials authorization.id)
    pure (some (toProviderResourceAuthorization authorization connection credentials))

/-- `activeProviderCredentials(connection)[0]?.clientGeneration ?? 1`. -/
def providerCredentialGeneration (connection : ProviderResourceAuthorizationRecord) : ℕ :=
  ((connection.credentials.filter fun credential => credential.status = .active).head?.map
    (·.clientGeneration)).getD 1

end Realmroot
