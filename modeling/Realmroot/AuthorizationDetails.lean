import Realmroot.Schema.Authorization

/-!
# Authorization details

The comparisons of the source on lists of authorization details. Two details are
the same when their canonical JSON texts are.
-/

namespace Realmroot

/-- What `JSON.stringify` writes for one character of a string. -/
def escapeCharacter (c : Char) : List Char :=
  match c with
  | '"' => ['\\', '"']
  | '\\' => ['\\', '\\']
  | '\n' => ['\\', 'n']
  | '\r' => ['\\', 'r']
  | '\t' => ['\\', 't']
  | c =>
    if c.toNat = 8 then ['\\', 'b']
    else if c.toNat = 12 then ['\\', 'f']
    else if c.toNat < 32 then
      ['\\', 'u', '0', '0', Nat.digitChar (c.toNat / 16), Nat.digitChar (c.toNat % 16)]
    else [c]

/-- `JSON.stringify(value)` of a string. -/
def quoteString (value : String) : String :=
  String.ofList ('"' :: (value.toList.flatMap escapeCharacter ++ ['"']))

/-- `values.join(',')`. -/
def joinWithComma (values : List String) : String := ",".intercalate values

section Canonical

variable [Platform]

mutual

/-- `canonicalJson`: the entries of an object are sorted by key. -/
def canonicalJson : Json → String
  | .null => "null"
  | .bool value => if value then "true" else "false"
  | .num value => Platform.numberToString value
  | .str value => quoteString value
  | .arr entries => "[" ++ joinWithComma (canonicalEntries entries) ++ "]"
  | .obj fields =>
    let sorted := (canonicalFields fields).insertionSort fun a b => Platform.localeLe a.1 b.1
    "\x7b" ++ joinWithComma (sorted.map fun entry => quoteString entry.1 ++ ":" ++ entry.2) ++ "\x7d"

def canonicalEntries : List Json → List String
  | [] => []
  | value :: values => canonicalJson value :: canonicalEntries values

def canonicalFields : List (String × Json) → List (String × String)
  | [] => []
  | (key, value) :: fields => (key, canonicalJson value) :: canonicalFields fields

end

mutual

/-- `JSON.stringify`. -/
def stringifyJson : Json → String
  | .null => "null"
  | .bool value => if value then "true" else "false"
  | .num value => Platform.numberToString value
  | .str value => quoteString value
  | .arr entries => "[" ++ joinWithComma (stringifyEntries entries) ++ "]"
  | .obj fields => "\x7b" ++ joinWithComma (stringifyFields fields) ++ "\x7d"

def stringifyEntries : List Json → List String
  | [] => []
  | value :: values => stringifyJson value :: stringifyEntries values

def stringifyFields : List (String × Json) → List String
  | [] => []
  | (key, value) :: fields =>
    (quoteString key ++ ":" ++ stringifyJson value) :: stringifyFields fields

end

def canonicalDetail (detail : AuthorizationDetail) : String := canonicalJson (.obj detail)

/-- `canonicalJson(authorizationDetails)`. -/
def canonicalDetails (details : List AuthorizationDetail) : String :=
  canonicalJson (.arr (details.map .obj))

/-- The context hash of entitlements: `sha256(canonicalJson(authorizationDetails))`. -/
def contextHash (details : List AuthorizationDetail) : String :=
  Platform.sha256 (canonicalDetails details)

mutual

/-- `String(value)`. -/
def textOf : Json → String
  | .null => "null"
  | .bool value => if value then "true" else "false"
  | .num value => Platform.numberToString value
  | .str value => value
  | .arr entries => joinWithComma (textsOf entries)
  | .obj _ => "[object Object]"

/-- The entries as `Array.prototype.join` writes them. -/
def textsOf : List Json → List String
  | [] => []
  | .null :: values => "" :: textsOf values
  | value :: values => textOf value :: textsOf values

end

/-! ## Comparisons -/

/-- `exactAuthorizationDetails`: the same details in any order. -/
def exactAuthorizationDetails (left right : List AuthorizationDetail) : Bool :=
  left.length = right.length &&
    sortStrings (left.map canonicalDetail) = sortStrings (right.map canonicalDetail)

/-- Each requested text is taken out of what remains. -/
def takeEach : List String → List String → Bool
  | [], _ => true
  | text :: texts, remaining => remaining.contains text && takeEach texts (remaining.erase text)

/-- `isAuthorizationDetailsSubset`. -/
def isAuthorizationDetailsSubset (requested allowed : List AuthorizationDetail) : Bool :=
  takeEach (requested.map canonicalDetail) (allowed.map canonicalDetail)

/-- `hasDuplicateAuthorizationDetails`. -/
def hasDuplicateAuthorizationDetails (details : List AuthorizationDetail) : Bool :=
  !decide (details.map canonicalDetail).Nodup

/-- `authorizationDetailMatchesTemplate`. -/
def authorizationDetailMatchesTemplate (detail template : AuthorizationDetail) : Bool :=
  template.all fun (key, value) => (detail.field key).map canonicalJson = some (canonicalJson value)

/-- The loop of `authorizationDetailsMatchRequest`: each requirement takes the first
candidate that meets it. -/
def matchRequirements : List AuthorizationDetail → List AuthorizationDetail → Bool
  | [], _ => true
  | requirement :: requirements, remaining =>
    let meetsIt := fun candidate : AuthorizationDetail =>
      canonicalDetail candidate = canonicalDetail requirement ||
        authorizationDetailMatchesTemplate candidate requirement
    remaining.any meetsIt && matchRequirements requirements (remaining.eraseP meetsIt)

/-- `authorizationDetailsMatchRequest`. -/
def authorizationDetailsMatchRequest (approved requested : List AuthorizationDetail) : Bool :=
  approved.length = requested.length && !hasDuplicateAuthorizationDetails approved &&
    matchRequirements requested approved

/-! ## Checks -/

def invalidAuthorizationDetails (description : String) : Error :=
  Error.oauthError "invalid_authorization_details" description

/-- `requiresAccountConnection`. -/
def requiresAccountConnection (resource : ApiResource) : Bool :=
  resource.authorizationModel = .external

/-- `assertNativeAuthoritySelection`: exactly one authority of a user or an organization. -/
def assertNativeAuthoritySelection (details : List AuthorizationDetail) : Except Error Unit :=
  let invalid := invalidAuthorizationDetails "Select exactly one Realmroot authority Context."
  match details with
  | [detail] =>
    match detail.field "type", detail.field "authority", detail.field "id" with
    | some (.str type), some authority, some (.str _) =>
      if type = "realmroot_authority" ∧ textOf authority ∈ ["organization", "user"] then .ok ()
      else .error invalid
    | _, _, _ => .error invalid
  | _ => .error invalid

/-- `assertConcreteAuthorizationDetails`. -/
def assertConcreteAuthorizationDetails (templates details : List AuthorizationDetail)
    (label : String) : Except Error Unit :=
  if details.any fun detail =>
      !(templates.any fun template => authorizationDetailMatchesTemplate detail template) ||
        templates.any fun template => canonicalDetail template = canonicalDetail detail then
    .error (invalidAuthorizationDetails
      (label ++ " authorization details must identify concrete resource contexts."))
  else .ok ()

/-- `assertAuthorizationDetailsSelection`, given what the connection carries. -/
def assertAuthorizationDetailsSelection (resource : ApiResource)
    (connectionDetails : Option (List AuthorizationDetail)) (details : List AuthorizationDetail) :
    Except Error Unit := do
  if !requiresAccountConnection resource then assertNativeAuthoritySelection details
  else if resource.authorizationDetails = [] then
    if details ≠ [] then
      .error (invalidAuthorizationDetails
        "This external API resource does not use authorization details.")
    else .ok ()
  else if connectionDetails.all (· = []) then
    .error (invalidAuthorizationDetails
      "The resource account must be explicitly reauthorized for authorization details.")
  else if details = [] then
    .error (invalidAuthorizationDetails
      "Select at least one concrete authorization detail entry.")
  else
    assertConcreteAuthorizationDetails resource.authorizationDetails details "Selected"
    if hasDuplicateAuthorizationDetails details then
      .error (invalidAuthorizationDetails
        "Selected authorization details contain duplicate entries.")
    else .ok ()

/-- `assertAuthorizationDetailsSubset`. -/
def assertAuthorizationDetailsSubset (requested allowed : List AuthorizationDetail)
    (boundary : String) : Except Error Unit :=
  if isAuthorizationDetailsSubset requested allowed then .ok ()
  else .error (invalidAuthorizationDetails
    ("Requested authorization details exceed the " ++ boundary ++ " boundary."))

/-- `assertProviderConnectionAuthorizationDetails`. -/
def assertProviderConnectionAuthorizationDetails
    (configuredTemplates requested granted : List AuthorizationDetail) : Except Error Unit :=
  let invalid := invalidAuthorizationDetails
    "Provider connection authorization details must identify the requested concrete resource contexts."
  if requested = [] then .ok ()
  else if granted = [] ∨ hasDuplicateAuthorizationDetails granted then .error invalid
  else if granted.any fun detail =>
      configuredTemplates.any (fun template => canonicalDetail template = canonicalDetail detail) ||
        !(configuredTemplates.any fun template =>
          authorizationDetailMatchesTemplate detail template) then
    .error invalid
  else if requested.all fun requirement =>
      granted.any fun detail => authorizationDetailMatchesTemplate detail requirement then .ok ()
  else .error invalid

end Canonical

/-- `assertScopeSubset`. -/
def assertScopeSubset (requested allowed : List String) (boundary : String) : Except Error Unit :=
  let missing := requested.filter fun scope => !allowed.contains scope
  if missing = [] then .ok ()
  else .error (Error.badRequest ("Requested scopes exceed the " ++ boundary ++ " boundary: " ++
    ", ".intercalate missing ++ "."))

/-- `exactScopes`. -/
def exactScopes (left right : List String) : Bool :=
  left.length = right.length && sortStrings left = sortStrings right

/-- `scopeString`: the words of a string, sorted. -/
def scopeString : Option Json → Option (List String)
  | some (.str value) => some (sortStrings (splitWhiteSpace value))
  | _ => none

end Realmroot
