import Realmroot.Usecases.ConnectorUpdates

/-!
# Reading what a resource publishes

A resource publishes the metadata of a protected resource and an OpenAPI document. Its scope
registry is read off both: the metadata names the scopes, the document describes them, and the
registry that is stored says how they are granted.
-/

namespace Realmroot

open AtomicProgram Error Connectors

/-! ## Protected resource metadata -/

structure ProtectedResourceMetadata where
  sourceUrl : String
  resource : String
  authorizationServers : List String
  scopesSupported : List String
  authorizationDetailsTypesSupported : List String
  etag : Option String
  deriving DecidableEq

/-- The characters of a scope. -/
def isScopeCharacter (c : Char) : Bool :=
  c.val = 0x21 || (0x23 ≤ c.val && c.val ≤ 0x5b) || (0x5d ≤ c.val && c.val ≤ 0x7e)

/-- `scopeArray`. -/
def scopeArray (value : Option Json) : Option (List String) :=
  match value with
  | some (.arr entries) =>
    if entries = [] then none
    else
      ((stringEntries entries).filter fun scopes =>
        scopes.all fun scope => scope ≠ "" && scope.toList.all isScopeCharacter).map
          fun scopes => sortStrings (unique scopes)
  | _ => none

/-- `stringArray`: the strings of a list that holds nothing else. -/
def stringArrayOrEmpty (value : Option Json) : List String :=
  match value with
  | some (.arr entries) => (stringEntries entries).getD []
  | _ => []

/-- The part of a header before its parameters. -/
def mediaType [Platform] (contentType : Option String) : Option String :=
  contentType.map fun value =>
    Platform.toLowerCase (trim (String.ofList (value.toList.takeWhile (· ≠ ';'))))

section Programs

variable [Platform]

/-- `protectedResourceMetadataUrl`. -/
def protectedResourceMetadataUrl (resourceUrl : String) : Except Error String := do
  let url ← parseUrl resourceUrl
  let path := if url.pathname = "/" then "" else url.pathname
  .ok (Platform.printUrl { url with
    pathname := "/.well-known/oauth-protected-resource" ++ path
    username := "", password := "", hash := "" })

/-- What `readProtectedResourceMetadata` makes of the answer. -/
def protectedResourceMetadata (sourceUrl resourceUrl : String) (response : PeerResponse) :
    Except Error ProtectedResourceMetadata :=
  let invalid := badGateway "Protected resource metadata returned an invalid response."
  if response.status ≠ 200 ∨ mediaType response.contentType ≠ some "application/json" then
    .error invalid
  else
    match response.body with
    | some (.obj values) =>
      if Record.field values "resource" ≠ some (.str resourceUrl) then
        .error (badRequest
          "Protected resource metadata does not match the configured resource URL.")
      else
        match scopeArray (Record.field values "scopes_supported") with
        | none =>
          .error (badRequest "Protected resource metadata must advertise at least one valid scope.")
        | some scopesSupported =>
          .ok
            { sourceUrl := sourceUrl, resource := resourceUrl
              authorizationServers :=
                stringArrayOrEmpty (Record.field values "authorization_servers")
              scopesSupported := scopesSupported
              authorizationDetailsTypesSupported :=
                stringArrayOrEmpty (Record.field values "authorization_details_types_supported")
              etag := response.etag }
    | _ => .error invalid

/-- `readProtectedResourceMetadata`. -/
def readProtectedResourceMetadata (resourceUrl : String) : Request ProtectedResourceMetadata := do
  let sourceUrl ← ofResult (protectedResourceMetadataUrl resourceUrl)
  let reply ← fetchPeer { method := "GET", url := sourceUrl, authentication := .none }
  let response ←
    orThrow (badGateway "Protected resource metadata could not be reached.") reply
  ofResult (protectedResourceMetadata sourceUrl resourceUrl response)

end Programs

/-! ## The OpenAPI document -/

/-- The pairs of a target and its parameters in a `Link` header. -/
def linkValues : ℕ → List Char → List (List Char × List Char)
  | 0, _ | _, [] => []
  | n + 1, c :: rest =>
    let target := rest.takeWhile (· ≠ '>')
    let closed := rest.dropWhile (· ≠ '>')
    if c = '<' ∧ target ≠ [] ∧ closed ≠ [] then
      (target, closed.tail.takeWhile (· ≠ ',')) ::
        linkValues n (closed.tail.dropWhile (· ≠ ','))
    else linkValues n rest

/-- The value of a `rel` parameter, quoted or not. -/
def relationValue (chars : List Char) : Option (List Char) :=
  let token := chars.takeWhile fun c => c ≠ ';' && c ≠ ',' && !isWhiteSpace c
  let bare := if token = [] then none else some token
  match chars with
  | '"' :: rest =>
    let quoted := rest.takeWhile (· ≠ '"')
    if quoted ≠ [] ∧ rest.dropWhile (· ≠ '"') ≠ [] then some quoted else bare
  | _ => bare

/-- The value of a `rel` parameter that begins here. -/
def relationAt : List Char → Option (List Char)
  | ';' :: rest =>
    match rest.dropWhile isWhiteSpace with
    | r :: e :: l :: rest =>
      if r.toLower = 'r' ∧ e.toLower = 'e' ∧ l.toLower = 'l' then
        match rest.dropWhile isWhiteSpace with
        | '=' :: rest => relationValue (rest.dropWhile isWhiteSpace)
        | _ => none
      else none
    | _ => none
  | _ => none

/-- The relations of a link. -/
def linkRelations (parameters : List Char) : List String :=
  splitWhiteSpace (String.ofList ((parameters.tails.findSome? relationAt).getD []))

/-- The length of a string in UTF-16 code units. -/
def utf16Length (value : String) : ℕ :=
  (value.toList.map fun c => if 0xffff < c.val then 2 else 1).sum

/-- `objectValue`. -/
def objectValue (value : Option Json) (message : String) : Except Error Record :=
  match value with
  | some (.obj fields) => .ok fields
  | _ => .error (badRequest message)

/-- `objectValueOrEmpty`. -/
def objectValueOrEmpty (value : Option Json) : Record :=
  match value with
  | some (.obj fields) => fields
  | _ => []

/-- The root of an OpenAPI 3.x document. -/
def openApiRoot (document : Json) : Except Error Record := do
  let root ← objectValue (some document) "Business resource OpenAPI document is invalid."
  match root.field "openapi" with
  | some (.str version) =>
    if "3.".toList.isPrefixOf version.toList then .ok root
    else .error (badRequest "Business resource must publish an OpenAPI 3.x document.")
  | _ => .error (badRequest "Business resource must publish an OpenAPI 3.x document.")

/-- The description of `extractResourceInfo`. -/
def infoDescription (value : Option Json) : Except Error (Option String) :=
  match value with
  | none => .ok none
  | some (.str description) =>
    if 1000 < utf16Length (trim description) then
      .error (badRequest
        "Business resource OpenAPI info description must not exceed 1000 characters.")
    else .ok (truthy (some (trim description)))
  | some _ =>
    .error (badRequest "Business resource OpenAPI info description must be a string.")

/-- `extractResourceInfo`: the name and the description. -/
def extractResourceInfo (document : Json) : Except Error (String × Option String) := do
  let root ← openApiRoot document
  let info ← objectValue (root.field "info") "Business resource OpenAPI info is invalid."
  match info.field "title" with
  | some (.str title) =>
    if trim title = "" then
      .error (badRequest "Business resource OpenAPI info must declare a non-empty title.")
    else if 200 < utf16Length (trim title) then
      .error (badRequest "Business resource OpenAPI info title must not exceed 200 characters.")
    else do
      let description ← infoDescription (info.field "description")
      .ok (trim title, description)
  | _ => .error (badRequest "Business resource OpenAPI info must declare a non-empty title.")

structure ResourceScopeDefinition where
  value : String
  description : Option String
  deriving DecidableEq

/-- `resolveSecurityScheme`. -/
def resolveSecurityScheme (candidate : Json) (schemes : Record) : Except Error (Option Record) :=
  let scheme := objectValueOrEmpty (some candidate)
  match Record.field scheme "$ref" with
  | some (.str ref) =>
    let schemePrefix := "#/components/securitySchemes/".toList
    if schemePrefix.isPrefixOf ref.toList then
      match decodeURIComponent (String.ofList (ref.toList.drop schemePrefix.length)) with
      | some name => .ok (some (objectValueOrEmpty (schemes.field name)))
      | none => .error (.internal "URI malformed")
    else .ok none
  | _ => .ok (some scheme)

/-- One scope of a flow, added to the ones before it. -/
def addScope (found : List ResourceScopeDefinition) (scope : String) (description : Json) :
    Except Error (List ResourceScopeDefinition) :=
  match description with
  | .str text =>
    let description := truthy (some (trim text))
    if trim scope = "" then
      .error (badRequest
        "OAuth scope declarations must use non-empty scope names and string descriptions.")
    else
      match found.find? fun old => old.value = scope with
      | some old =>
        if old.description = description then .ok found
        else .error (badRequest
          ("OAuth scope \"" ++ scope ++ "\" has inconsistent descriptions across flows."))
      | none => .ok (found ++ [{ value := scope, description := description }])
  | _ =>
    .error (badRequest
      "OAuth scope declarations must use non-empty scope names and string descriptions.")

/-- The scopes that the flows of a scheme declare. -/
def declaredByScheme (scheme : Record) : List (String × Json) :=
  if scheme.field "type" = some (.str "oauth2") then
    (objectValueOrEmpty (scheme.field "flows")).flatMap fun flow =>
      objectValueOrEmpty (Record.field (objectValueOrEmpty (some flow.2)) "scopes")
  else []

/-- The scopes of one scheme, added to the ones before it. -/
def addScheme (schemes : Record) (found : List ResourceScopeDefinition) (candidate : Json) :
    Except Error (List ResourceScopeDefinition) := do
  let scheme ← resolveSecurityScheme candidate schemes
  (declaredByScheme (scheme.getD [])).foldlM (fun found entry => addScope found entry.1 entry.2)
    found

/-- The security schemes of a document. -/
def securitySchemes (root : Record) : Record :=
  objectValueOrEmpty
    (Record.field (objectValueOrEmpty (root.field "components")) "securitySchemes")

/-- `extractResourceScopes`. -/
def extractResourceScopes [Platform] (document : Json) :
    Except Error (List ResourceScopeDefinition) := do
  let root ← openApiRoot document
  let schemes := securitySchemes root
  let found ← schemes.foldlM (fun found entry => addScheme schemes found entry.2) []
  .ok (found.insertionSort fun left right => Platform.localeLe left.value right.value)

/-- What is used of a resource contract. -/
structure ResourceContract where
  name : String
  description : Option String
  scopes : List ResourceScopeDefinition
  deriving DecidableEq

section Programs

variable [Platform]

/-- `serviceDescriptionUrl`. -/
def serviceDescriptionUrl (link : Option String) (resourceUrl : String) : Except Error String :=
  let missing := badRequest
    "Business resource must advertise its OpenAPI document with a service-desc Link."
  match truthy link with
  | none => .error missing
  | some link =>
    match (linkValues link.toList.length link.toList).find? fun entry =>
        (linkRelations entry.2).contains "service-desc" with
    | some entry =>
      match Platform.resolveUrl (String.ofList entry.1) resourceUrl with
      | some url => .ok url
      | none => .error (.internal "Invalid URL")
    | none => .error missing

/-- What `readResourceContractDocument` makes of a document. -/
def resourceContract (document : Json) : Except Error ResourceContract := do
  let info ← extractResourceInfo document
  let scopes ← extractResourceScopes document
  .ok { name := info.1, description := info.2, scopes := scopes }

/-- `readResourceContract` without a registry: no condition goes out with the request. -/
def readResourceContract (resourceUrl : String) : Request ResourceContract := do
  let reply ← fetchPeer { method := "GET", url := resourceUrl, authentication := .none }
  let response ← orThrow
    (badGateway "Business resource could not be reached during OpenAPI discovery.") reply
  throwIf (response.ok = false) (badRequest "Business resource discovery failed.")
  let documentUrl ← ofResult (serviceDescriptionUrl response.link resourceUrl)
  let reply ← fetchPeer { method := "GET", url := documentUrl, authentication := .none }
  let response ← orThrow
    (badGateway "Business resource OpenAPI document could not be reached.") reply
  throwIf (response.status = 304)
    (.internal "Unconditional Resource Server contract read returned no document.")
  throwIf (response.ok = false) (badRequest "Business resource OpenAPI discovery failed.")
  let document ← orThrow (badRequest "Business resource OpenAPI document is invalid.")
    response.body
  ofResult (resourceContract document)

/-! ## Synchronization -/

/-- `hashScopeRegistry`. -/
def hashScopeRegistry (scopes : List ResourceScope) : String :=
  Platform.sha256Hex (stringifyJson (.arr (scopes.map fun scope =>
    .obj [("value", .str scope.value),
      ("description", (scope.description.map .str).getD .null)])))

/-- How the registry that is stored grants a scope; of two entries the last one counts. -/
def previousMode (registry : Option ResourceScopeRegistry) (value : String) : Option GrantMode :=
  (registry.bind fun registry => registry.scopes.reverse.find? fun scope =>
    scope.value = value).map (·.grantMode)

/-- The scopes of `synchronizeResourceDiscovery`. -/
def synchronizedScopes (previousRegistry : Option ResourceScopeRegistry)
    (described : List ResourceScopeDefinition) (scopesSupported : List String) :
    List ResourceScope :=
  scopesSupported.map fun value =>
    { value := value
      description := (described.find? fun scope => scope.value = value).bind (·.description)
      grantMode := (previousMode previousRegistry value).getD .assigned }

/-- `synchronizeResourceDiscovery`, with the metadata that was read before it. -/
def synchronizeResourceDiscovery (resourceUrl : String)
    (previousRegistry : Option ResourceScopeRegistry) (metadata : ProtectedResourceMetadata) :
    Request ResourceDiscovery := do
  let now ← currentTime
  let contract ← readResourceContract resourceUrl
  let scopes := synchronizedScopes previousRegistry contract.scopes metadata.scopesSupported
  pure
    { name := contract.name, description := contract.description
      scopeRegistry :=
        { discovery :=
            { sourceUrl := metadata.sourceUrl, etag := metadata.etag
              documentHash := hashScopeRegistry scopes, syncedAt := now, lastError := none }
          scopes := scopes } }

end Programs
end Realmroot
