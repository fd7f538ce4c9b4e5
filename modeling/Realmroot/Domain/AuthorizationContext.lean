import Realmroot.Platform

/-!
# Authorization contexts

A context is a subject acting within one tenant with a set of scopes. An
operation on a tenant is allowed when the context is bound to that tenant and
holds the scope that the operation requires.
-/

namespace Realmroot

inductive AuthorizationSubject where
  | user (id : String)
  | agent (id : String)
  | application (id : String)
  | workload (id : String)
  deriving DecidableEq, Repr

inductive AuthorizationTenant where
  | user (id : String)
  | organization (id : String)
  deriving DecidableEq, Repr

/-- `scopes` lists the members of a set. -/
structure AuthorizationContext where
  subject : AuthorizationSubject
  tenant : AuthorizationTenant
  scopes : List String
  deriving DecidableEq

def tenantKey : AuthorizationTenant → String
  | .user id => "user:" ++ id
  | .organization id => "organization:" ++ id

def authorize (context : AuthorizationContext) (targetTenant : AuthorizationTenant)
    (requiredScope : String) : Except Error Unit :=
  if tenantKey context.tenant ≠ tenantKey targetTenant then
    .error (.forbidden "The authenticated subject cannot access the target tenant.")
  else if ¬ context.scopes.contains requiredScope then
    .error (.forbidden ("OAuth scope \"" ++ requiredScope ++ "\" is required."))
  else .ok ()

def canAuthorize (context : AuthorizationContext) (targetTenant : AuthorizationTenant)
    (requiredScope : String) : Bool :=
  tenantKey context.tenant = tenantKey targetTenant && context.scopes.contains requiredScope

/-- Distinct tenants have distinct keys. -/
@[simp] theorem tenantKey_inj {a b : AuthorizationTenant} : tenantKey a = tenantKey b ↔ a = b := by
  constructor
  · intro h
    have hchars := congrArg String.toList h
    cases a <;> cases b <;> simp [tenantKey, String.ext_iff] at hchars ⊢ <;> exact hchars
  · intro h
    rw [h]

theorem authorize_ok {context : AuthorizationContext} {target : AuthorizationTenant}
    {scope : String} :
    authorize context target scope = .ok () ↔ context.tenant = target ∧ scope ∈ context.scopes := by
  unfold authorize
  split_ifs with htenant hscope
  · simp_all
  · simp_all
  · simp_all

theorem canAuthorize_iff {context : AuthorizationContext} {target : AuthorizationTenant}
    {scope : String} :
    canAuthorize context target scope = true ↔ context.tenant = target ∧ scope ∈ context.scopes := by
  simp [canAuthorize]

end Realmroot
