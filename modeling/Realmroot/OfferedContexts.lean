import Realmroot.Usecases.AuthorizationContexts
import Realmroot.Rules

/-!
# Contexts that are offered

The contexts that a user is offered are those in which tokens are issued later, for every target
of the request.
-/

namespace Realmroot

open AtomicProgram Program

/-- A context that a user may ask for: of a user, or of an organization. -/
inductive ContextChoice where
  | user (userId : String)
  | organization (organizationId : String) (named : organizationId ≠ "")

/-- The reference that stands for the choice. -/
def ContextChoice.referenceId : ContextChoice → String
  | user userId => "user:" ++ userId
  | organization organizationId _ => "organization:" ++ organizationId

/-- The targets of a request: no resource when none is requested. -/
def targetsOf (resources : List (Option ApiResource)) : List (Option ApiResource) :=
  if resources = [] then [none] else resources

/-- The context is among those that are offered. -/
def Offers (w : World) (application : ApplicationAggregate)
    (resources : List (Option ApiResource)) (user : SessionUser) (choice : ContextChoice) : Prop :=
  ∃ contexts,
    (listOAuthAuthorizationContexts application resources user).settled {} w = .ok contexts ∧
      ∃ context ∈ contexts, context.id = choice.referenceId

/-- What is asked for a target in the chosen context. -/
def redemption (user : SessionUser) (choice : ContextChoice) (target : Option ApiResource)
    (scopes : List String) (metadata : Option Record) (grantType : Option String) :
    OAuthTokenInput :=
  { user := some user.toOAuthUser, scopes := scopes, resource := target.map (·.resourceUrl)
    referenceId := some choice.referenceId, metadata := metadata, grantType := grantType }

/-- The reference resolves to a context in which the target, if there is one, is visible. -/
def Redeems (w : World) (application : ApplicationAggregate) (target : Option ApiResource)
    (input : OAuthTokenInput) : Prop :=
  ∃ organizationId,
    (resolveOAuthOrganizationId input (some application) input.refusalCode).settled {} w =
      .ok organizationId ∧
    ∀ resource ∈ target, visibleInContext input application resource organizationId = true

/-! ## References -/

theorem afterPrefix_append (start rest : String) :
    afterPrefix start (start ++ rest) = some rest := by
  simp [afterPrefix, ← String.length_toList]

theorem afterPrefix_user_organization (organizationId : String) :
    afterPrefix "user:" ("organization:" ++ organizationId) = none := by
  simp [afterPrefix]

theorem user_ne_organization (userId organizationId : String) :
    "user:" ++ userId ≠ "organization:" ++ organizationId := by
  intro h
  have hlist := congrArg String.toList h
  simp at hlist

/-! ## What a user may use -/

/-- The organization is there and not disabled, and the user is a member. -/
def Database.availableTo (db : Database) (userId organizationId : String) : Bool :=
  (db.findOrganization organizationId).any (!·.disabled) &&
    (db.findMemberByOrganizationUser organizationId userId).isSome

section Contexts

variable {w : World} {application : ApplicationAggregate} {resources : List (Option ApiResource)}
  {user : SessionUser}

theorem settled_requireContext (organizationId userId : String) (refusal : Error) :
    (requireContext organizationId userId refusal).settled {} w =
      if w.db.availableTo userId organizationId = true then .ok organizationId
      else .error refusal := by
  unfold requireContext
  change Program.settled ({} : Reply) (Program.bind (throwIf _ _) _) w = _
  rw [settled_bind]
  unfold throwIf Database.availableTo
  cases horganization : w.db.findOrganization organizationId with
  | none => simp [horganization, Program.settled]
  | some organization =>
    cases hmember : w.db.findMemberByOrganizationUser organizationId userId with
    | none => simp [hmember, Program.settled]
    | some member =>
      cases hdisabled : organization.disabled with
      | true => simp [horganization, hdisabled, Program.settled]
      | false => simp [horganization, hmember, hdisabled, Program.settled]

theorem mem_listUserMemberships {userId organizationId : String} {db : Database} :
    (∃ membership ∈ db.listUserMemberships userId, membership.organizationId = organizationId) ↔
      (db.findMemberByOrganizationUser organizationId userId).isSome = true := by
  simp only [Database.listUserMemberships, Database.findMemberByOrganizationUser,
    Option.isSome_map, List.find?_isSome, List.mem_map, List.mem_filter, Bool.and_eq_true,
    decide_eq_true_eq]
  constructor
  · rintro ⟨_, ⟨row, ⟨hrow, huser⟩, rfl⟩, hin⟩
    exact ⟨row, hrow, hin, huser⟩
  · rintro ⟨row, hrow, hin, huser⟩
    exact ⟨row.toMember, ⟨row, ⟨hrow, huser⟩, rfl⟩, hin⟩

/-- The organizations of the user's memberships. -/
def Database.memberOrganizations (db : Database) (userId : String) : List (Option Organization) :=
  (db.listUserMemberships userId).map fun membership =>
    db.findOrganization membership.organizationId

/-- The active ones among them are those that the user may use. -/
theorem exists_memberOrganization_iff {db : Database} {userId organizationId : String} :
    (∃ organization ∈ ((db.memberOrganizations userId).filterMap id).filter
        (fun organization => !organization.disabled), organization.id = organizationId) ↔
      db.availableTo userId organizationId = true := by
  simp only [Database.memberOrganizations, List.mem_filter, List.mem_filterMap, id_eq,
    List.mem_map, exists_eq_right, Database.availableTo, Bool.and_eq_true,
    ← mem_listUserMemberships, Option.any_eq_true]
  constructor
  · rintro ⟨organization, ⟨⟨membership, hmembership, hfound⟩, hactive⟩, rfl⟩
    have hid : organization.id = membership.organizationId := by
      simpa using List.find?_some hfound
    rw [hid]
    exact ⟨⟨organization, hfound, hactive⟩, membership, hmembership, rfl⟩
  · rintro ⟨⟨organization, hfound, hactive⟩, membership, hmembership, rfl⟩
    have hid : organization.id = membership.organizationId := by
      simpa using List.find?_some hfound
    exact ⟨organization, ⟨⟨membership, hmembership, hfound⟩, hactive⟩, hid⟩

/-! ## Offering -/

theorem mapM_ok {α β : Type} (f : α → β) (as : List α) :
    as.mapM (fun a => (.ok (f a) : Except Error β)) = .ok (as.map f) := by
  induction as with
  | nil => rfl
  | cons a as ih =>
    rw [List.mapM_cons, ih]
    rfl

/-- The contexts that are listed, unless too many organizations are required. -/
def Database.listedContexts (db : Database) (application : ApplicationAggregate)
    (resources : List (Option ApiResource)) (user : SessionUser) : List OAuthAuthorizationContext :=
  contextsOf user (truthy (requiredOrganizationIds application resources).head?)
    (db.memberOrganizations user.id)

theorem settled_findOrganizations :
    (mapEach (w.db.listUserMemberships user.id) fun membership =>
      query (·.findOrganization membership.organizationId)).settled ({} : Reply) w =
        .ok (w.db.memberOrganizations user.id) := by
  rw [settled_mapEach]
  exact mapM_ok _ _

theorem settled_listOAuthAuthorizationContexts :
    (listOAuthAuthorizationContexts application resources user).settled {} w =
      if 1 < (requiredOrganizationIds application resources).length then
        .error (.badRequest
          "The requested Application and Resource Servers do not share one authorization Context.")
      else if w.db.listedContexts application resources user = [] then
        .error (.badRequest "No active authorization Context is available for this request.")
      else .ok (w.db.listedContexts application resources user) := by
  unfold listOAuthAuthorizationContexts
  change Program.settled ({} : Reply) (Program.bind (throwIf _ _) _) w = _
  rw [settled_bind]
  unfold throwIf
  split_ifs with hmany hnone
  · rfl
  · change Program.settled ({} : Reply) (Program.bind (mapEach _ _) _) w = _
    rw [settled_bind, settled_findOrganizations]
    change Program.settled ({} : Reply) (Program.bind (throwIf _ _) _) w = _
    unfold Database.listedContexts at hnone
    rw [settled_bind, throwIf, if_pos hnone]
    rfl
  · change Program.settled ({} : Reply) (Program.bind (mapEach _ _) _) w = _
    rw [settled_bind, settled_findOrganizations]
    change Program.settled ({} : Reply) (Program.bind (throwIf _ _) _) w = _
    unfold Database.listedContexts at hnone
    rw [settled_bind, throwIf, if_neg hnone]
    rfl

theorem offers_iff {choice : ContextChoice} :
    Offers w application resources user choice ↔
      (requiredOrganizationIds application resources).length ≤ 1 ∧
        ∃ context ∈ w.db.listedContexts application resources user,
          context.id = choice.referenceId := by
  unfold Offers
  rw [settled_listOAuthAuthorizationContexts]
  split_ifs with hmany hnone
  · simp [hmany]
  · simp [hnone]
  · simp [Nat.le_of_not_lt hmany]

/-! ## What is required -/

theorem mem_requiredOrganizationIds {organizationId : String} :
    organizationId ∈ requiredOrganizationIds application resources ↔
      (application.visibility = .private ∧ organizationId = application.ownerOrganizationId) ∨
        ∃ resource, some resource ∈ resources ∧ resource.visibility = .private ∧
          resource.ownerOrganizationId = organizationId := by
  unfold requiredOrganizationIds unique
  rw [List.mem_eraseDups, List.mem_append]
  apply or_congr
  · by_cases hprivate : application.visibility = .private <;> simp [hprivate]
  · simp [and_assoc]

theorem forall_required_iff {organizationId : String} :
    (∀ required ∈ requiredOrganizationIds application resources, organizationId = required) ↔
      (application.visibility = .private → organizationId = application.ownerOrganizationId) ∧
        ∀ resource, some resource ∈ resources → resource.visibility = .private →
          organizationId = resource.ownerOrganizationId := by
  simp only [mem_requiredOrganizationIds]
  constructor
  · intro h
    exact ⟨fun hprivate => h _ (Or.inl ⟨hprivate, rfl⟩),
      fun resource hresource hprivate => h _ (Or.inr ⟨resource, hresource, hprivate, rfl⟩)⟩
  · rintro ⟨howner, howners⟩ required (⟨hprivate, rfl⟩ | ⟨resource, hresource, hprivate, rfl⟩)
    · exact howner hprivate
    · exact howners resource hresource hprivate

theorem required_eq_nil_iff :
    requiredOrganizationIds application resources = [] ↔
      application.visibility = .public ∧
        ∀ resource, some resource ∈ resources → resource.visibility = .public := by
  simp only [List.eq_nil_iff_forall_not_mem, mem_requiredOrganizationIds]
  constructor
  · intro h
    constructor
    · cases hvisibility : application.visibility with
      | «public» => rfl
      | «private» => exact absurd (Or.inl ⟨hvisibility, rfl⟩) (h application.ownerOrganizationId)
    · intro resource hresource
      cases hvisibility : resource.visibility with
      | «public» => rfl
      | «private» =>
        exact absurd (Or.inr ⟨resource, hresource, hvisibility, rfl⟩)
          (h resource.ownerOrganizationId)
  · rintro ⟨hpublic, hresources⟩ organizationId
      (⟨hprivate, -⟩ | ⟨resource, hresource, hprivate, -⟩)
    · simp [hpublic] at hprivate
    · simp [hresources resource hresource] at hprivate

/-- At most one organization is required, and it is the given one. -/
theorem required_all_iff {organizationId : String} :
    (requiredOrganizationIds application resources).length ≤ 1 ∧
        (∀ required ∈ (requiredOrganizationIds application resources).head?,
          organizationId = required) ↔
      ∀ required ∈ requiredOrganizationIds application resources, organizationId = required := by
  have hnodup : (requiredOrganizationIds application resources).Nodup := nodup_unique _
  cases hrequired : requiredOrganizationIds application resources with
  | nil => simp
  | cons first rest =>
    cases rest with
    | nil => simp
    | cons second rest =>
      rw [hrequired] at hnodup
      have hne : first ≠ second := by
        rintro rfl
        simp at hnodup
      simp only [List.length_cons, List.mem_cons]
      constructor
      · intro h
        omega
      · intro h
        exact absurd ((h first (by simp)).symm.trans (h second (by simp))) hne

theorem listed_organization_iff {required : Option String}
    {organizations : List (Option Organization)} {organizationId : String} :
    (∃ context ∈ contextsOf user required organizations,
        context.id = "organization:" ++ organizationId) ↔
      (∃ organization ∈ (organizations.filterMap id).filter
          (fun organization => !organization.disabled), organization.id = organizationId) ∧
        ∀ other ∈ required, organizationId = other := by
  have haccount : (accountContext user).id ≠ "organization:" ++ organizationId :=
    user_ne_organization _ _
  cases required with
  | none => simp [contextsOf, haccount, organizationContext]
  | some other =>
    simp only [contextsOf, List.mem_map, List.mem_filter, organizationContext, Option.mem_some_iff,
      forall_eq', decide_eq_true_eq]
    constructor
    · rintro ⟨_, ⟨organization, ⟨hmem, rfl⟩, rfl⟩, hid⟩
      have hid : organization.id = organizationId := String.append_right_inj _ |>.mp hid
      exact ⟨⟨organization, hmem, hid⟩, hid.symm⟩
    · rintro ⟨⟨organization, hmem, hid⟩, rfl⟩
      exact ⟨_, ⟨organization, ⟨hmem, hid⟩, rfl⟩, by rw [hid]⟩

theorem listed_user_iff {required : Option String} {organizations : List (Option Organization)}
    {userId : String} :
    (∃ context ∈ contextsOf user required organizations, context.id = "user:" ++ userId) ↔
      required = none ∧ user.id = userId := by
  have horganization (organization : Organization) :
      (organizationContext organization).id ≠ "user:" ++ userId := fun h =>
    user_ne_organization _ _ h.symm
  cases required with
  | none => simp [contextsOf, accountContext, horganization]
  | some other => simp [contextsOf, horganization]

/-! ## Redeeming -/

section Redeeming

variable {target : Option ApiResource} {scopes : List String} {metadata : Option Record}
  {grantType : Option String}

theorem settled_resolve_user (userId code : String) :
    (resolveOAuthOrganizationId
      (redemption user (.user userId) target scopes metadata grantType) (some application)
      code).settled ({} : Reply) w =
        if user.id = userId ∧ application.visibility = .public then .ok none
        else .error (oauthProviderError code
          "The selected authorization Context is invalid.") := by
  have hprivate : isPrivateApplication (some application) = true ↔
      ¬ application.visibility = .public := by
    cases hvisibility : application.visibility <;> simp [isPrivateApplication, hvisibility]
  change Program.settled ({} : Reply) (userContext _ user.id code (some application)) w = _
  unfold userContext redemption ContextChoice.referenceId
  simp only [Option.bind_some, afterPrefix_append, Option.isSome_some, if_true, ne_eq,
    Option.some.injEq, String.append_right_inj, hprivate, eq_comm (a := userId),
    ← not_and_or, ite_not]
  split_ifs <;> rfl

theorem settled_selectedContext (organizationId userId code : String) :
    ∃ refusal, (selectedContext organizationId userId code (some application)).settled
      ({} : Reply) w =
        if (application.visibility = .private →
            organizationId = application.ownerOrganizationId) ∧
          w.db.availableTo userId organizationId = true then .ok (some organizationId)
        else .error refusal := by
  unfold selectedContext
  change ∃ refusal, Program.settled ({} : Reply) (Program.bind (throwIf _ _) _) w = _
  rw [settled_bind, throwIf]
  by_cases howner : application.visibility = .private →
      organizationId = application.ownerOrganizationId
  · have hpasses : ¬ ∃ app ∈ some application, app.visibility = .private ∧
        organizationId ≠ app.ownerOrganizationId := by
      rintro ⟨_, ⟨rfl⟩, hprivate, hne⟩
      exact hne (howner hprivate)
    rw [if_neg hpasses]
    change ∃ refusal, Program.settled ({} : Reply) (Program.bind (requireContext _ _ _) _) w = _
    rw [settled_bind, settled_requireContext]
    by_cases havailable : w.db.availableTo userId organizationId = true
    · refine ⟨.internal "", ?_⟩
      rw [if_pos havailable, if_pos ⟨howner, havailable⟩]
      rfl
    · refine ⟨oauthProviderError code
        "The selected authorization Context is no longer available.", ?_⟩
      rw [if_neg havailable, if_neg fun h => havailable h.2]
  · have hrefused : ∃ app ∈ some application, app.visibility = .private ∧
        organizationId ≠ app.ownerOrganizationId :=
      ⟨application, rfl, Classical.not_imp.mp howner⟩
    rw [if_pos hrefused]
    refine ⟨oauthProviderError code "The selected authorization Context is unavailable.", ?_⟩
    rw [if_neg fun h => howner h.1]
    rfl

theorem settled_resolve_organization {organizationId : String} (named : organizationId ≠ "")
    (code : String) :
    (resolveOAuthOrganizationId
      (redemption user (.organization organizationId named) target scopes metadata grantType)
      (some application) code).settled ({} : Reply) w =
        (selectedContext organizationId user.id code (some application)).settled {} w := by
  have hselected : selectedOrganizationId (some ("organization:" ++ organizationId)) =
      some organizationId := by
    simp [selectedOrganizationId, afterPrefix_append, truthy, named]
  change Program.settled ({} : Reply) (userContext _ user.id code (some application)) w = _
  unfold userContext redemption ContextChoice.referenceId
  simp only [Option.bind_some, afterPrefix_user_organization, Option.isSome_none,
    Bool.false_eq_true, if_false, hselected]

theorem redeems_user_iff {userId : String} :
    Redeems w application target
        (redemption user (.user userId) target scopes metadata grantType) ↔
      (user.id = userId ∧ application.visibility = .public) ∧
        ∀ resource ∈ target, resource.visibility = .public := by
  unfold Redeems
  rw [settled_resolve_user]
  split_ifs with h
  · simp [h, visibleInContext, redemption]
  · simp [h]

theorem redeems_organization_iff {organizationId : String} (named : organizationId ≠ "") :
    Redeems w application target
        (redemption user (.organization organizationId named) target scopes metadata grantType) ↔
      ((application.visibility = .private → organizationId = application.ownerOrganizationId) ∧
        w.db.availableTo user.id organizationId = true) ∧
          ∀ resource ∈ target, resource.visibility = .private →
            organizationId = resource.ownerOrganizationId := by
  unfold Redeems
  rw [settled_resolve_organization]
  obtain ⟨refusal, hsettled⟩ := @settled_selectedContext w application organizationId user.id
    (redemption user (.organization organizationId named) target scopes metadata
      grantType).refusalCode
  rw [hsettled]
  have hvisible (resource : ApiResource) :
      (resource.visibility = .public ∨ organizationId = resource.ownerOrganizationId) ↔
        (resource.visibility = .private → organizationId = resource.ownerOrganizationId) := by
    cases resource.visibility <;> simp
  split_ifs with h
  · rw [and_iff_right h]
    simp [visibleInContext, redemption, hvisible]
  · simp [h]

end Redeeming

/-- What is asked of every target and of its resource, once for all targets. -/
theorem forall_targetsOf {A : Prop} {B : ApiResource → Prop} :
    (∀ target ∈ targetsOf resources, A ∧ ∀ resource ∈ target, B resource) ↔
      A ∧ ∀ resource, some resource ∈ resources → B resource := by
  unfold targetsOf
  split_ifs with hnone
  · simp [hnone]
  · obtain ⟨target, htarget⟩ := List.exists_mem_of_ne_nil _ hnone
    constructor
    · intro h
      exact ⟨(h target htarget).1, fun resource hresource => (h _ hresource).2 resource rfl⟩
    · rintro ⟨ha, hb⟩ target htarget
      refine ⟨ha, ?_⟩
      rintro resource ⟨rfl⟩
      exact hb resource htarget

end Contexts

/-! ## Offered and redeemed -/

/-- A context is offered exactly when it is accepted for every target of the request. -/
theorem offers_iff_redeems (w : World) (application : ApplicationAggregate)
    (resources : List (Option ApiResource)) (user : SessionUser) (choice : ContextChoice)
    (scopes : List String) (metadata : Option Record) (grantType : Option String)
    (howner : application.ownerOrganizationId ≠ "")
    (howners : ∀ resource, some resource ∈ resources → resource.ownerOrganizationId ≠ "") :
    Offers w application resources user choice ↔
      ∀ target ∈ targetsOf resources, Redeems w application target
        (redemption user choice target scopes metadata grantType) := by
  have hhead : truthy (requiredOrganizationIds application resources).head? =
      (requiredOrganizationIds application resources).head? := by
    cases hfirst : (requiredOrganizationIds application resources).head? with
    | none => rfl
    | some first =>
      have hne : first ≠ "" := by
        rcases mem_requiredOrganizationIds.mp (List.mem_of_head? hfirst) with
          ⟨-, rfl⟩ | ⟨resource, hresource, -, rfl⟩
        · exact howner
        · exact howners resource hresource
      simp [truthy, hne]
  rw [offers_iff, Database.listedContexts, hhead]
  cases choice with
  | user userId =>
    simp only [ContextChoice.referenceId, listed_user_iff, redeems_user_iff, forall_targetsOf,
      List.head?_eq_none_iff, required_eq_nil_iff]
    constructor
    · rintro ⟨-, ⟨hpublic, hresources⟩, hid⟩
      exact ⟨⟨hid, hpublic⟩, hresources⟩
    · rintro ⟨⟨hid, hpublic⟩, hresources⟩
      have hnil := required_eq_nil_iff.mpr ⟨hpublic, hresources⟩
      exact ⟨by simp [hnil], ⟨hpublic, hresources⟩, hid⟩
  | organization organizationId named =>
    have hrequired := @required_all_iff application resources organizationId
    rw [forall_required_iff] at hrequired
    simp only [ContextChoice.referenceId, listed_organization_iff, redeems_organization_iff,
      forall_targetsOf, exists_memberOrganization_iff]
    constructor
    · rintro ⟨hone, havailable, hfirst⟩
      obtain ⟨howner, howners⟩ := hrequired.mp ⟨hone, hfirst⟩
      exact ⟨⟨howner, havailable⟩, howners⟩
    · rintro ⟨⟨howner, havailable⟩, howners⟩
      obtain ⟨hone, hfirst⟩ := hrequired.mpr ⟨howner, howners⟩
      exact ⟨hone, havailable, hfirst⟩

namespace OfferedContextsExample

theorem ada_ne_empty : "ada" ≠ "" := by decide

def ada : SessionUser := { id := "ada", id_ne_empty := ada_ne_empty }

/-- An Application that only the members of its organization may use. -/
def intranet : ApplicationAggregate :=
  { id := "intranet", clientId := "client", disabled := false, ownerOrganizationId := "acme"
    visibility := .private, oidcScopes := ["openid"], resourceScopes := []
    tokenExchangePolicies := [] }

def world : World :=
  { db :=
      { organizations := [{ id := "acme", slug := "acme", disabled := false, name := "Acme" }]
        members := [{ id := "m", organizationId := "acme", userId := "ada", role := "member"
                      updatedAt := 0 }] }
    clock := 0, nextId := 0 }

/-- Of no requested resource anything holds, but the account is not offered. -/
theorem account_not_offered :
    ¬ (Offers world intranet [] ada (.user "ada") ↔
      ∀ target ∈ ([] : List (Option ApiResource)), Redeems world intranet target
        (redemption ada (.user "ada") target [] none none)) := by
  intro h
  have hoffered := offers_iff.mp (h.mpr (by simp))
  revert hoffered
  decide

def ledger : ApiResource :=
  { id := "ledger", identifier := "ledger", name := "Ledger", description := none
    resourceUrl := "https://ledger.example", authorizationModel := .native, connectorId := none
    authorizationDetails := [], enabled := true, ownerOrganizationId := "acme"
    visibility := .private, scopeRegistry := none, availableToAgents := false, deletedAt := none
    updatedAt := 0 }

theorem organization_offered :
    Offers world intranet [some ledger] ada (.organization "acme" (by decide)) ↔
      ∀ target ∈ targetsOf [some ledger], Redeems world intranet target
        (redemption ada (.organization "acme" (by decide)) target [] none none) :=
  offers_iff_redeems world intranet [some ledger] ada (.organization "acme" (by decide)) [] none
    none (by decide) (by simp [ledger])

end OfferedContextsExample

end Realmroot
