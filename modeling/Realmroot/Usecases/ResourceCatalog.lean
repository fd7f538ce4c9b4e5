import Realmroot.Usecases.Connections

/-!
# Catalogs of authorization details

The contexts that a connected account offers, page by page: from the catalog of the
authorization server when it has one, else from what the connection itself carries.
-/

namespace Realmroot

open AtomicProgram Error

/-! ## Pages -/

/-- What the callers read of an item of a catalog. -/
structure AuthorizationDetailCatalogItem where
  authorizationDetail : AuthorizationDetail
  grantedScopes : Option (List String)
  deriving DecidableEq

structure AuthorizationDetailCatalog where
  items : List AuthorizationDetailCatalogItem
  page : ℕ
  totalPages : ℕ
  deriving DecidableEq

/-- The page size of the loops over a catalog. -/
def catalogLimit : ℕ := 100

/-- `Math.ceil(total / limit)`. -/
def pageCount (total limit : ℕ) : ℕ := (total + limit - 1) / limit

/-! ## Reading a page -/

/-- A string that is not empty once it is trimmed. -/
def nonEmptyString : Json → Option String
  | .str value => if trim value = "" then none else some (trim value)
  | _ => none

/-- A field that may be missing. -/
def optionalField {α : Type} (record : Record) (key : String) (read : Json → Option α) :
    Option (Option α) :=
  match record.field key with
  | none => some none
  | some value => (read value).map some

/-- The object has no other fields. -/
def hasOnly (keys : List String) (record : Record) : Bool :=
  record.all fun entry => keys.contains entry.1

/-- The display data of an item are well formed. -/
def isCatalogDisplay : Json → Bool
  | .obj fields =>
    hasOnly ["label", "description", "metadata"] fields &&
      ((Record.field fields "label").bind nonEmptyString).isSome &&
      (match Record.field fields "description" with
        | none | some .null => true
        | some value => (nonEmptyString value).isSome) &&
      (match Record.field fields "metadata" with
        | none => true
        | some (.obj entries) => entries.all fun entry =>
          trim entry.1 ≠ "" && (match entry.2 with
            | .str _ => true
            | _ => false)
        | some _ => false)
  | _ => false

/-- `z.array(nonEmptyString)`. -/
def nonEmptyStrings : Json → Option (List String)
  | .arr entries => entries.mapM nonEmptyString
  | _ => none

/-- `authorizationDetailCatalogItemSchema`. -/
def parseCatalogItem : Json → Option AuthorizationDetailCatalogItem
  | .obj fields => do
    if hasOnly ["id", "authorizationDetail", "grantedScopes", "display"] fields = false then none
    if ((Record.field fields "display").any isCatalogDisplay) = false then none
    let _ ← optionalField fields "id" nonEmptyString
    let detail ← (Record.field fields "authorizationDetail").bind parseAuthorizationDetail
    let grantedScopes ← optionalField fields "grantedScopes" nonEmptyStrings
    some { authorizationDetail := detail, grantedScopes := grantedScopes }
  | _ => none

/-- A number that is a natural one. -/
def naturalNumber : Option Json → Option ℕ
  | some (.num value) => if value.den = 1 ∧ 0 ≤ value then some value.num.toNat else none
  | _ => none

structure PaginationMetadata where
  page : ℕ
  pageSize : ℕ
  totalItems : ℕ
  totalPages : ℕ
  deriving DecidableEq

section Schemas

variable [Platform]

/-- `z.number().int().min(0)`. -/
def parseInteger (value : Option Json) : Option ℕ :=
  (naturalNumber value).filter Platform.acceptsInteger

/-- `paginationMetadataSchema`. -/
def parsePagination : Json → Option PaginationMetadata
  | .obj fields => do
    let page ← parseInteger (Record.field fields "page")
    let pageSize ← parseInteger (Record.field fields "pageSize")
    let totalItems ← parseInteger (Record.field fields "totalItems")
    let totalPages ← parseInteger (Record.field fields "totalPages")
    if page = 0 ∨ pageSize = 0 ∨ totalPages ≠ pageCount totalItems pageSize then none
    else
      some { page := page, pageSize := pageSize, totalItems := totalItems
             totalPages := totalPages }
  | _ => none

/-- `authorizationDetailCatalogSchema`. -/
def parseCatalog : Option Json → Option (List AuthorizationDetailCatalogItem × PaginationMetadata)
  | some (.obj fields) => do
    if hasOnly ["items", "pagination"] fields = false then none
    let items ← match Record.field fields "items" with
      | some (.arr entries) => entries.mapM parseCatalogItem
      | _ => none
    let pagination ← (Record.field fields "pagination").bind parsePagination
    some (items, pagination)
  | _ => none

end Schemas

/-! ## The catalog of a connection -/

/-- `activeProviderCredentials`. -/
def activeProviderCredentials (connection : ProviderResourceAuthorizationRecord) :
    List ProviderCredential :=
  connection.credentials.filter fun credential => credential.status = .active

section Catalogs

variable [Platform]

/-- `requireProviderCredential`. -/
def requireProviderCredential (connection : ProviderResourceAuthorizationRecord)
    (scopes : List String) (authorizationDetails : List AuthorizationDetail) :
    Except Error ProviderCredential :=
  let candidates := (activeProviderCredentials connection).filter fun credential =>
    scopes.all credential.grantedScopes.contains &&
      isAuthorizationDetailsSubset authorizationDetails credential.authorizationDetails
  match candidates with
  | [credential] => .ok credential
  | [] => .error (forbidden "No active provider credential covers the requested authority.")
  | _ => .error
    (badRequest "Select an authorization context that identifies one provider credential.")

/-- The checks of `requestAuthorizationDetailCatalog` on a page that was read. -/
def checkCatalog (resource : ApiResource) (page : ℕ)
    (items : List AuthorizationDetailCatalogItem) (pagination : PaginationMetadata) :
    Except Error Unit :=
  if pagination.pageSize ≠ catalogLimit ∨ pagination.page ≠ page then
    .error (badGateway "Authorization detail catalog returned mismatched pagination metadata.")
  else if catalogLimit < items.length then
    .error (badGateway "Authorization detail catalog returned more items than requested.")
  else if pagination.totalItems < (page - 1) * catalogLimit + items.length then
    .error (badGateway "Authorization detail catalog returned inconsistent pagination metadata.")
  else if ¬ (items.map fun item => canonicalDetail item.authorizationDetail).Nodup then
    .error (badGateway "Authorization detail catalog contains duplicate details.")
  else if items.any fun item => !resource.authorizationDetails.any fun template =>
      authorizationDetailMatchesTemplate item.authorizationDetail template then
    .error (badGateway
      "Authorization detail catalog contains a detail outside the resource templates.")
  else .ok ()

/-- `requestAuthorizationDetailCatalog`; the parameters of the query are listed as a form. -/
def requestAuthorizationDetailCatalog (endpoint bearer : String) (resource : ApiResource)
    (page : ℕ) : Request AuthorizationDetailCatalog := do
  let reply ← fetchPeer
    { method := "GET", url := endpoint, authentication := .bearer bearer
      form := [("page", toString page), ("pageSize", toString catalogLimit)] }
  let response ← orThrow (badGateway "Authorization detail catalog could not be reached.") reply
  throwIf (response.ok = false) (badGateway "Authorization detail catalog request failed.")
  let (items, pagination) ←
    orThrow (badGateway "Authorization detail catalog response is invalid.")
      (parseCatalog response.body)
  ofResult (checkCatalog resource page items pagination)
  pure { items := items, page := pagination.page, totalPages := pagination.totalPages }

/-- `readAuthorizationDetailCatalog`. -/
def readAuthorizationDetailCatalog (resource : ApiResource)
    (connection : ProviderResourceAuthorizationRecord) (page : ℕ)
    (authorization : ExternalResourceAuthorization) (endpoint requiredScope : String) :
    Request AuthorizationDetailCatalog := do
  let credential ← ofResult (requireProviderCredential connection [] [])
  throwIf (connection.grantedScopes.contains requiredScope = false) (badRequest
    "Resource account must be reauthorized for the authorization detail catalog scope.")
  let token ← refreshConnectionToken credential authorization
  requestAuthorizationDetailCatalog endpoint token.accessToken resource page

/-- The page of the details that the connection carries. -/
def connectionCatalog (connection : ProviderResourceAuthorizationRecord) (page : ℕ) :
    AuthorizationDetailCatalog :=
  { items := ((connection.authorizationDetails.drop ((page - 1) * catalogLimit)).take
      catalogLimit).map fun detail => { authorizationDetail := detail, grantedScopes := none }
    page := page
    totalPages := pageCount connection.authorizationDetails.length catalogLimit }

/-- `readResourceCatalog`, without what only the lists show of an item. -/
def readResourceCatalog (resource : ApiResource)
    (connection : ProviderResourceAuthorizationRecord) (page : ℕ) :
    Request AuthorizationDetailCatalog := do
  let authorization ←
    externalAuthorizationOf resource (some (providerCredentialGeneration connection))
  let found := authorization.bind fun authorization => do
    let endpoint ← truthy authorization.authorizationDetailsCatalogEndpoint
    let requiredScope ← truthy authorization.authorizationDetailsCatalogScope
    some (authorization, endpoint, requiredScope)
  match found with
  | some (authorization, endpoint, requiredScope) =>
    readAuthorizationDetailCatalog resource connection page authorization endpoint requiredScope
  | none => .pure (connectionCatalog connection page)

/-! ## Scopes of a context -/

/-- `map.set(key, value)`. -/
def setEntry {α : Type} (entries : List (String × α)) (key : String) (value : α) :
    List (String × α) :=
  if entries.any fun entry => entry.1 = key then
    entries.map fun entry => if entry.1 = key then (key, value) else entry
  else entries ++ [(key, value)]

/-- What the catalog grants for each requested detail: the texts of details that were found. -/
abbrev GrantedByDetail := List (String × Option (List String))

def recordGrants (requested : List String) (items : List AuthorizationDetailCatalogItem)
    (granted : GrantedByDetail) : GrantedByDetail :=
  items.foldl (fun granted item =>
    let key := canonicalDetail item.authorizationDetail
    if requested.contains key then setEntry granted key item.grantedScopes else granted) granted

/-- `totalPages` of a page is at most this, whoever serves it. -/
def lastCatalogPage (connection : ProviderResourceAuthorizationRecord) : ℕ :=
  max (pageCount maxSafeInteger catalogLimit)
    (pageCount connection.authorizationDetails.length catalogLimit)

/-- The loop of `accountScopesForAuthorizationDetails`, of so many pages at most. -/
def readGrants (resource : ApiResource) (connection : ProviderResourceAuthorizationRecord)
    (requested : List String) : ℕ → ℕ → GrantedByDetail → Request GrantedByDetail
  | 0, _, _ => .throw (badGateway "Authorization detail catalog could not be reached.")
  | pages + 1, page, granted => do
    let catalog ← readResourceCatalog resource connection page
    let found := recordGrants requested catalog.items granted
    if found.length = requested.length ∨ catalog.totalPages ≤ catalog.page then .pure found
    else readGrants resource connection requested pages (page + 1) found

/-- The scopes that all the details grant, or `none` when one of them does not say. -/
def commonScopes (requested : List String) (granted : GrantedByDetail) : Option (List String) :=
  if granted.length ≠ requested.length then some []
  else
    match granted.mapM (·.2) with
    | none => none
    | some [] => some []
    | some (first :: rest) =>
      some (sortStrings (first.filter fun scope => rest.all fun scopes => scopes.contains scope))

/-- `accountScopesForAuthorizationDetails`. -/
def accountScopesForAuthorizationDetails (resource : ApiResource)
    (connection : ProviderResourceAuthorizationRecord)
    (authorizationDetails : List AuthorizationDetail) : Request (Option (List String)) := do
  let requested := unique (authorizationDetails.map canonicalDetail)
  let granted ← readGrants resource connection requested (lastCatalogPage connection) 1 []
  pure (commonScopes requested granted)

end Catalogs

end Realmroot
