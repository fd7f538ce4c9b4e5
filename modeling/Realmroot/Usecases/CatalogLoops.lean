import Realmroot.Library.Rounds
import Realmroot.Usecases.ResourceCatalog

/-!
# Loops over a catalog

Four use cases read a catalog page by page, each until it has what it looks for or the page says
that it is the last one.
-/

namespace Realmroot

open AtomicProgram Error

/-- What a loop makes of a page: the state in which it goes on, or the value with which it ends.
It does not go on after a page that says that it is the last one. -/
structure CatalogLoop (τ β : Type) where
  visit : τ → AuthorizationDetailCatalog → τ ⊕ β
  ends : ∀ state catalog, (visit state catalog).isLeft → catalog.page < catalog.totalPages

namespace CatalogLoop

variable [Platform] {τ β : Type}

/-- One round: the page is read and visited. -/
def round (loop : CatalogLoop τ β) (resource : ApiResource)
    (connection : ProviderResourceAuthorizationRecord) (page : ℕ) (state : τ) :
    Request (τ ⊕ β) := do
  let catalog ← readResourceCatalog resource connection page
  pure (loop.visit state catalog)

/-- `for (let page = 1; ; page += 1)`, of so many pages at most. -/
def run (loop : CatalogLoop τ β) (resource : ApiResource)
    (connection : ProviderResourceAuthorizationRecord) (pages : ℕ) (state : τ) :
    Request (Option β) :=
  Program.rounds (loop.round resource connection) pages 1 state

/-- A loop that adds what it visits, up to the last page. -/
def collect (add : τ → AuthorizationDetailCatalog → τ) (done : τ → Bool) : CatalogLoop τ τ where
  visit state catalog :=
    let state := add state catalog
    if done state ∨ catalog.totalPages ≤ catalog.page then .inr state else .inl state
  ends state catalog h := by
    dsimp only at h
    split_ifs at h with hdone
    · cases h
    · omega

end CatalogLoop

section Loops

variable [Platform]

/-- The loop of `accountScopesForAuthorizationDetails`. -/
def grantsLoop (requested : List String) : CatalogLoop GrantedByDetail GrantedByDetail :=
  .collect (fun granted catalog => recordGrants requested catalog.items granted)
    fun granted => granted.length = requested.length

/-- The loop of `resolveApprovalAuthorizationDetail`: the item of the detail, if there is one. -/
def approvalDetailLoop (detail : AuthorizationDetail) :
    CatalogLoop Unit (Option AuthorizationDetailCatalogItem) where
  visit _ catalog :=
    match catalog.items.find? fun item =>
      exactAuthorizationDetails [item.authorizationDetail] [detail] with
    | some item => .inr (some item)
    | none => if catalog.totalPages ≤ catalog.page then .inr none else .inl ()
  ends state catalog h := by
    split at h
    · cases h
    · split_ifs at h with hlast
      · cases h
      · omega

end Loops

/-- A context that `createAgentPermission` selects. -/
structure PermissionSelection where
  authorizationDetails : List AuthorizationDetail
  grantedScopes : Option (List String)
  deriving DecidableEq

/-- The loop of `createAgentPermission`. -/
def selectionsLoop : CatalogLoop (List PermissionSelection) (List PermissionSelection) :=
  .collect (fun selections catalog => selections ++ catalog.items.map fun item =>
    { authorizationDetails := [item.authorizationDetail], grantedScopes := item.grantedScopes })
    fun _ => false

/-- The loop of `resolveRequestedAuthorizationDetails`. -/
def availableDetailsLoop : CatalogLoop (List AuthorizationDetail) (List AuthorizationDetail) :=
  .collect (fun available catalog => available ++ catalog.items.map (·.authorizationDetail))
    fun _ => false

end Realmroot
