import Realmroot.Usecases.ResourceDiscovery

/-!
# Protected operations

The operations of an OpenAPI document that need scopes, with the sets of scopes any one of which
is enough, and what is left of them when only some scopes are advertised.
-/

namespace Realmroot

structure ResourceOperationDefinition where
  method : String
  path : String
  operationId : Option String
  summary : Option String
  description : Option String
  requiredScopeSets : List (List String)
  deriving DecidableEq

def operationMethods : List String :=
  ["get", "put", "post", "delete", "options", "head", "patch", "trace"]

/-- `method.toUpperCase()`, of ASCII letters. -/
def upperCaseMethod (method : String) : String := String.ofList (method.toList.map Char.toUpper)

/-- `stringValue`. -/
def stringValue (value : Option Json) : Option String :=
  match value with
  | some (.str text) => if trim text = "" then none else some text
  | _ => none

/-- `securityRequirements`. -/
def securityRequirements (value : Option Json) : List Record :=
  match value with
  | some (.arr entries) => entries.map fun entry => objectValueOrEmpty (some entry)
  | _ => []

/-! ## Scope sets -/

/-- The values that a requirement lists for the schemes. -/
def matchedValues (schemeNames : List String) (requirement : Record) : List (List Json) :=
  requirement.filterMap fun entry =>
    match entry.2 with
    | .arr values => if schemeNames.contains entry.1 then some values else none
    | _ => none

/-- The scope set of a requirement, or `none` when it matches no scheme. -/
def requirementScopeSet (schemeNames : List String) (requirement : Record) : Option (List String) :=
  let matched := matchedValues schemeNames requirement
  if matched = [] then none
  else some (sortStrings (unique (matched.flatten.filterMap fun value => stringValue (some value))))

/-- The key of a scope set in the map of `operationScopeSets`. -/
def scopeSetKey (scopeSet : List String) : String := "\x00".intercalate scopeSet

/-- `unique.set(key, scopeSet)`: a key that is there keeps its place. -/
def setScopeSet (found : List (String × List String)) (scopeSet : List String) :
    List (String × List String) :=
  if found.any fun entry => entry.1 = scopeSetKey scopeSet then
    found.map fun entry =>
      if entry.1 = scopeSetKey scopeSet then (entry.1, scopeSet) else entry
  else found ++ [(scopeSetKey scopeSet, scopeSet)]

def operationScopeSets (requirements : List Record) (schemeNames : List String) :
    List (List String) :=
  ((requirements.filterMap (requirementScopeSet schemeNames)).foldl setScopeSet []).map (·.2)

/-! ## Operations -/

section Operations

variable [Platform]

def isScopeBearingSecurityScheme (scheme : Record) : Bool :=
  scheme.field "type" = some (.str "oauth2") ||
    scheme.field "type" = some (.str "openIdConnect") ||
      scheme.field "type" = some (.str "http") &&
        match scheme.field "scheme" with
        | some (.str name) => Platform.toLowerCase name = "dpop"
        | _ => false

/-- The scheme, after the names of those before it that bear scopes. -/
def addScopeScheme (schemes : Record) (names : List String) (entry : String × Json) :
    Except Error (List String) := do
  let scheme ← resolveSecurityScheme entry.2 schemes
  .ok (if scheme.any isScopeBearingSecurityScheme then names ++ [entry.1] else names)

/-- The names of the schemes that bear scopes. -/
def scopeSchemeNames (schemes : Record) : Except Error (List String) :=
  schemes.foldlM (addScopeScheme schemes) []

omit [Platform] in
/-- What `extractProtectedOperations` makes of one method of a path. -/
def protectedOperation (schemeNames : List String) (documentSecurity : List Record)
    (pathName : String) (path : Record) (method : String) : Option ResourceOperationDefinition :=
  let operation := objectValueOrEmpty (path.field method)
  if operation = [] then none
  else
    let requirements := match Record.field operation "security" with
      | some security => securityRequirements (some security)
      | none => documentSecurity
    let requiredScopeSets := operationScopeSets requirements schemeNames
    if requiredScopeSets = [] then none
    else some
      { method := upperCaseMethod method
        path := pathName
        operationId := stringValue (Record.field operation "operationId")
        summary := stringValue (Record.field operation "summary")
        description := stringValue (Record.field operation "description")
        requiredScopeSets := requiredScopeSets }

/-- `extractProtectedOperations`. -/
def extractProtectedOperations (document : Json) :
    Except Error (List ResourceOperationDefinition) := do
  let root ← openApiRoot document
  let schemeNames ← scopeSchemeNames (securitySchemes root)
  let documentSecurity := securityRequirements (root.field "security")
  .ok ((objectValueOrEmpty (root.field "paths")).flatMap fun entry =>
    operationMethods.filterMap
      (protectedOperation schemeNames documentSecurity entry.1 (objectValueOrEmpty (some entry.2))))

end Operations

/-- `projectResourceOperations`. -/
def projectResourceOperations (operations : List ResourceOperationDefinition)
    (advertisedScopes : List String) : List ResourceOperationDefinition :=
  operations.filterMap fun operation =>
    let requiredScopeSets := operation.requiredScopeSets.filter fun scopeSet =>
      scopeSet.all advertisedScopes.contains
    if requiredScopeSets = [] then none
    else some { operation with requiredScopeSets := requiredScopeSets }

end Realmroot
