import Realmroot.Delegation
import Realmroot.Usecases.OAuthTokens

/-!
# Access tokens in one context

The scopes of an access token and its organization claim are computed by two functions, each
of which resolves the context for itself. They agree, and every scope of a resource in the
token is one that the principal holds in that context.
-/

namespace Realmroot

open AtomicProgram Program

/-- The organization in whose context the principal acts: for a user the selected one, else
the owner of a private Application, else the owner of a private resource; for an Application
its owner. -/
def OAuthTokenInput.actingOrganization (input : OAuthTokenInput) (db : Database)
    (application : Option ApplicationAggregate) : Option String :=
  let resource := (truthy input.resource).bind db.findResourceByResourceUrl
  if input.user = none then application.map (·.ownerOrganizationId)
  else if (input.referenceId.bind (afterPrefix "user:")).isSome then none
  else
    (selectedOrganizationId input.referenceId).or
      (((application.filter fun app => app.visibility = .private).map
          (·.ownerOrganizationId)).or
        ((resource.filter fun resource => resource.visibility = .private).map
          (·.ownerOrganizationId)))

/-- The ids of organizations are not empty. -/
structure Database.OrganizationsNamed (db : Database) : Prop where
  organizations : ∀ organization ∈ db.organizations, organization.id ≠ ""
  owners : ∀ app ∈ db.applications, app.ownerOrganizationId ≠ ""

/-- A token for the input may carry the scope of the resource, in the context of the
organization. -/
structure TokenGrants (db : Database) (now : Time) (input : OAuthTokenInput)
    (application : ApplicationAggregate) (resource : ApiResource)
    (organizationId : Option String) (scope : String) : Prop where
  requested : scope ∈ input.scopes
  declared : scope ∈ resource.declaredScopes
  configured : scope ∈ application.configuredScopes resource.id
  userHolds : ∀ user ∈ input.user,
    UserHolds db now user.id (tenantOf organizationId) resource scope
  applicationHolds : input.user = none →
    organizationId = some application.ownerOrganizationId ∧
      ApplicationHolds db now application resource scope
  consented : ∀ user ∈ input.user, application.consentRequired = true →
    ∃ consent ∈ db.findConsent
        { applicationId := application.id, userId := user.id
          resourceServerId := some resource.id },
      scope ∈ consent.scopes

/-! ## The context -/

section Context

variable {w : World} {β : Type}

/-- A query for something that may have no key, at the head of a longer request. -/
theorem undisturbed_queryWhen {γ δ : Type} {key : Option γ} {select : γ → Database → Option δ}
    {next : Option δ → Request β} {P : β → World → Prop}
    (h : ∀ t, Undisturbed w t → (next (key.bind fun k => select k w.db)).Meets undisturbed
      (onSuccess P) t) :
    (queryWhen key select >>= next).Meets undisturbed (onSuccess P) w := by
  cases key with
  | none => exact h w (Undisturbed.refl w)
  | some k =>
    refine meets_query fun t ht _ => ⟨trivial, ?_⟩
    have hnext := h t ht
    rw [← ht.1] at hnext
    exact hnext

/-- A context that is given is the one of an organization that is there. -/
theorem requireContext_spec (organizationId userId : String) (refusal : Error) (w : World) :
    (requireContext organizationId userId refusal).Meets undisturbed
      (onSuccess fun id t => Undisturbed w t ∧ id = organizationId ∧
        ∃ organization ∈ w.db.organizations, organization.id = organizationId) w := by
  unfold requireContext
  refine meets_query fun s hs _ => ⟨trivial, ?_⟩
  refine meets_query fun t ht _ => ⟨trivial, ?_⟩
  refine meets_throwIf (fun _ => trivial) fun hfound => ?_
  refine ⟨hs.trans ht, rfl, ?_⟩
  rw [hs.1] at hfound
  cases horganization : w.db.findOrganization organizationId with
  | none => simp [horganization] at hfound
  | some organization =>
    have hmem := List.mem_of_find?_eq_some horganization
    have hid := List.find?_some horganization
    exact ⟨organization, hmem, by simpa using hid⟩

/-- What the context of a user is, when it is resolved. -/
def ResolvesTo (w : World) (expected : Option String) (organizationId : Option String)
    (t : World) : Prop :=
  Undisturbed w t ∧ organizationId = expected ∧
    ∀ id ∈ organizationId, ∃ organization ∈ w.db.organizations, organization.id = id

/-- A context that is required is what the resolution answers. -/
theorem requireContext_resolves {w s : World} (hs : Undisturbed w s) (organizationId userId : String)
    (refusal : Error) :
    (requireContext organizationId userId refusal >>= fun id => Program.pure (some id)).Meets
      undisturbed (onSuccess (ResolvesTo w (some organizationId))) s := by
  refine meets_call (requireContext_spec organizationId userId refusal s)
    fun id t ⟨ht, hid, hfound⟩ => ?_
  subst hid
  rw [hs.1] at hfound
  refine ⟨hs.trans ht, rfl, ?_⟩
  rintro _ ⟨rfl⟩
  exact hfound

theorem resourceContext_spec (resource : Option String) (userId code : String) {w s : World}
    (hs : Undisturbed w s) :
    (resourceContext resource userId code).Meets undisturbed
      (onSuccess (ResolvesTo w ((((truthy resource).bind w.db.findResourceByResourceUrl).filter
        fun resource => resource.visibility = .private).map (·.ownerOrganizationId)))) s := by
  unfold resourceContext
  refine undisturbed_queryWhen fun t ht => ?_
  rw [hs.1]
  cases ((truthy resource).bind w.db.findResourceByResourceUrl).filter
      fun resource => resource.visibility = .private with
  | none =>
    refine ⟨hs.trans ht, rfl, ?_⟩
    rintro _ ⟨⟩
  | some resource => exact requireContext_resolves (hs.trans ht) _ _ _

theorem defaultContext_spec (input : OAuthTokenInput) (userId code : String)
    (application : Option ApplicationAggregate) (w : World) :
    (defaultContext input userId code application).Meets undisturbed
      (onSuccess (ResolvesTo w (((application.filter fun app => app.visibility = .private).map
          (·.ownerOrganizationId)).or
        ((((truthy input.resource).bind w.db.findResourceByResourceUrl).filter
          fun resource => resource.visibility = .private).map (·.ownerOrganizationId))))) w := by
  unfold defaultContext
  cases application.filter fun app => app.visibility = .private with
  | some app => exact requireContext_resolves (Undisturbed.refl w) _ _ _
  | none => exact resourceContext_spec input.resource userId code (Undisturbed.refl w)

/-- The context that is resolved for a user is the one in which the user acts. -/
theorem userContext_spec (input : OAuthTokenInput) {user : OAuthUser} (huser : input.user = some user)
    (code : String) (application : Option ApplicationAggregate) (w : World) :
    (userContext input user.id code application).Meets undisturbed
      (onSuccess (ResolvesTo w (input.actingOrganization w.db application))) w := by
  unfold userContext OAuthTokenInput.actingOrganization
  simp only [huser, reduceCtorEq, if_false]
  split_ifs with hreference hrefused
  · trivial
  · refine ⟨Undisturbed.refl w, rfl, ?_⟩
    rintro _ ⟨⟩
  · cases selectedOrganizationId input.referenceId with
    | none =>
      rw [Option.none_or]
      exact defaultContext_spec input user.id code application w
    | some organizationId =>
      rw [Option.some_or]
      unfold selectedContext
      exact meets_throwIf (fun _ => trivial) fun _ =>
        requireContext_resolves (Undisturbed.refl w) _ _ _

/-- The context is resolved for users only. -/
theorem resolveOAuthOrganizationId_spec (input : OAuthTokenInput)
    (application : Option ApplicationAggregate) (code : String) (w : World) :
    (resolveOAuthOrganizationId input application code).Meets undisturbed
      (onSuccess fun organizationId t => Undisturbed w t ∧
        (input.user = none → organizationId = none) ∧ (input.user ≠ none →
          ResolvesTo w (input.actingOrganization w.db application) organizationId t)) w := by
  unfold resolveOAuthOrganizationId
  cases huser : input.user with
  | none => exact ⟨Undisturbed.refl w, fun _ => rfl, fun h => absurd rfl h⟩
  | some user =>
    refine (userContext_spec input huser code application w).mono ?_
    rintro (e | organizationId) t h
    · trivial
    · refine ⟨h.1, ?_, fun _ => h⟩
      intro hnone
      cases hnone

end Context

/-! ## Scopes -/

section Scopes

theorem mem_targetResourceScopes {input : OAuthTokenInput} {application : ApplicationAggregate}
    {resource : ApiResource} {scope : String} :
    scope ∈ targetResourceScopes input application resource ↔
      scope ∈ input.scopes ∧ isOidcScope scope = false ∧
        scope ∈ application.configuredScopes resource.id ∧ scope ∈ resource.declaredScopes := by
  simp only [targetResourceScopes, OAuthTokenInput.resourceScopes, List.mem_filter,
    Bool.not_eq_true', Bool.and_eq_true, List.contains_iff_mem, and_assoc]

/-- The scopes that count as consented are those of the consent, if one is asked for. -/
theorem consentedScopes_spec (application : ApplicationAggregate) (userId resourceId : String)
    (targetScopes : List String) (w : World) :
    (consentedScopes application userId resourceId targetScopes).Meets undisturbed
      (onSuccess fun consented t => Undisturbed w t ∧ (application.consentRequired = true →
        ∀ scope ∈ consented, ∃ consent ∈ w.db.findConsent
          { applicationId := application.id, userId := userId
            resourceServerId := some resourceId }, scope ∈ consent.scopes)) w := by
  unfold consentedScopes
  split_ifs with hrequired
  · refine meets_query fun t ht _ => ⟨trivial, ht, ?_⟩
    intro _ scope hscope
    rw [ht.1] at hscope
    cases hconsent : w.db.findConsent
        { applicationId := application.id, userId := userId
          resourceServerId := some resourceId } with
    | none => simp [hconsent] at hscope
    | some consent => exact ⟨consent, rfl, by simpa [hconsent] using hscope⟩
  · refine ⟨Undisturbed.refl w, ?_⟩
    intro hconsent
    exact absurd hconsent hrequired

/-- The scopes of a resource among the authorized ones are granted in the context. -/
def GrantsAll (w : World) (input : OAuthTokenInput) (application : ApplicationAggregate)
    (resource : ApiResource) (organizationId : Option String) (authorized : AuthorizedScopes)
    (t : World) : Prop :=
  w.clock ≤ t.clock ∧ ∃ now, w.clock ≤ now ∧ now ≤ t.clock ∧
    ∀ scope ∈ authorized.scopes, isOidcScope scope = false →
      TokenGrants w.db now input application resource organizationId scope

theorem userTokenScopes_spec [Platform] {input : OAuthTokenInput} {user : OAuthUser}
    (huser : input.user = some user) (application : ApplicationAggregate) (resource : ApiResource)
    (organizationId : Option String) (w : World) :
    (userTokenScopes input application resource organizationId user.id).Meets undisturbed
      (onSuccess (GrantsAll w input application resource organizationId)) w := by
  unfold userTokenScopes
  refine meets_currentTime fun w₁ h₁ _ => ⟨trivial, ?_⟩
  refine meets_call (userEffectiveResourceScopes_spec user.id resource w₁.clock
    organizationId w₁) fun effective w₂ ⟨h₂, hholds⟩ => ?_
  have hw₂ := h₁.trans h₂
  refine meets_call (consentedScopes_spec application user.id resource.id _ w₂)
    fun consented w₃ ⟨h₃, hconsented⟩ => ?_
  rw [h₁.1] at hholds
  rw [hw₂.1] at hconsented
  refine meets_call (undisturbed_clock _ w₃) fun _ w₄ h₄ => ?_
  have hlast : w₁.clock ≤ w₄.clock := h₂.2.2.trans (h₃.2.2.trans h₄)
  refine ⟨h₁.2.2.trans hlast, w₁.clock, h₁.2.2, hlast, ?_⟩
  intro scope hscope hresource
  have htarget : scope ∈ (targetResourceScopes input application resource).filter fun scope =>
      effective.contains scope && consented.contains scope := by
    rcases List.mem_append.mp hscope with hoidc | htarget
    · have hoidc : isOidcScope scope = true := (List.mem_filter.mp hoidc).2
      simp [hoidc] at hresource
    · exact htarget
  obtain ⟨htarget, hboth⟩ := List.mem_filter.mp htarget
  simp only [Bool.and_eq_true, List.contains_iff_mem] at hboth
  obtain ⟨hrequested, -, hconfigured, hdeclared⟩ := mem_targetResourceScopes.mp htarget
  constructor
  · exact hrequested
  · exact hdeclared
  · exact hconfigured
  · rintro _ hsame
    rw [huser, Option.mem_some_iff] at hsame
    subst hsame
    exact hholds scope hboth.1
  · intro hnone
    rw [huser] at hnone
    cases hnone
  · intro _ hsame hrequired
    rw [huser, Option.mem_some_iff] at hsame
    subst hsame
    exact hconsented hrequired scope hboth.2

theorem applicationTokenScopes_spec {input : OAuthTokenInput} (huser : input.user = none)
    (application : ApplicationAggregate) (resource : ApiResource) (w : World) :
    (applicationTokenScopes input application resource).Meets undisturbed
      (onSuccess (GrantsAll w input application resource
        (some application.ownerOrganizationId))) w := by
  unfold applicationTokenScopes
  refine meets_call (applicationEffectiveResourceScopes_spec application resource w)
    fun effective t ⟨ht, now, hfrom, hto, hholds⟩ => ?_
  refine ⟨ht.2.2, now, hfrom, hto, ?_⟩
  intro scope hscope _
  obtain ⟨htarget, heffective⟩ := List.mem_filter.mp hscope
  obtain ⟨hrequested, -, hconfigured, hdeclared⟩ := mem_targetResourceScopes.mp htarget
  constructor
  · exact hrequested
  · exact hdeclared
  · exact hconfigured
  · intro user hsome
    rw [huser] at hsome
    cases hsome
  · intro _
    exact ⟨rfl, hholds scope (by simpa using heffective)⟩
  · intro user hsome
    rw [huser] at hsome
    cases hsome

/-- With a target, the scopes are granted in the context in which the principal acts. -/
theorem targetedScopes_spec [Platform] (input : OAuthTokenInput)
    (application : ApplicationAggregate) (resourceUrl : String) (w : World) :
    (targetedScopes input application resourceUrl).Meets undisturbed
      (onSuccess fun authorized t => ∃ resource ∈ w.db.findResourceByResourceUrl resourceUrl,
        GrantsAll w input application resource
          (input.actingOrganization w.db (some application)) authorized t) w := by
  unfold targetedScopes
  refine meets_query fun w₁ h₁ _ => ⟨trivial, ?_⟩
  refine meets_orThrow (fun _ => trivial) fun resource hresource => ?_
  have hresource := (Option.filter_eq_some_iff.mp hresource).1
  rw [h₁.1] at hresource
  refine meets_call (resolveOAuthOrganizationId_spec input (some application)
    input.refusalCode w₁) fun organizationId w₂ ⟨h₂, _, hcontext⟩ => ?_
  refine meets_throwIf (fun _ => trivial) fun _ => ?_
  refine meets_throwIf (fun _ => trivial) fun _ => ?_
  have hw := h₁.trans h₂
  have hgrants : ∀ (organizationId : Option String) (authorized : AuthorizedScopes) (t : World),
      organizationId = input.actingOrganization w.db (some application) →
      GrantsAll w₂ input application resource organizationId authorized t →
        ∃ resource ∈ w.db.findResourceByResourceUrl resourceUrl,
          GrantsAll w input application resource
            (input.actingOrganization w.db (some application)) authorized t := by
    rintro _ authorized t rfl ⟨hclock, now, hfrom, hto, hall⟩
    rw [hw.1] at hall
    exact ⟨resource, hresource, hw.2.2.trans hclock, now, hw.2.2.trans hfrom, hto, hall⟩
  unfold principalTokenScopes
  cases huser : input.user with
  | none =>
    refine (applicationTokenScopes_spec huser application resource w₂).mono ?_
    rintro (e | authorized) t h
    · trivial
    · refine hgrants _ authorized t ?_ h
      simp [OAuthTokenInput.actingOrganization, huser]
  | some user =>
    obtain ⟨-, hexpected, -⟩ := hcontext (by simp [huser])
    rw [h₁.1] at hexpected
    refine (userTokenScopes_spec huser application resource organizationId w₂).mono ?_
    rintro (e | authorized) t h
    · trivial
    · exact hgrants organizationId authorized t hexpected h

end Scopes

/-! ## The scopes and the claim of one input -/

section Tokens

variable {input : OAuthTokenInput} {P : Command → Prop}

theorem requireApplicationUserAccess_reads (hP : P .read) (application : ApplicationAggregate)
    (user : Option OAuthUser) (code : String) :
    (requireApplicationUserAccess application user code).Uses P := by
  cases user with
  | none => trivial
  | some user =>
    have haccess : (applicationUserHasAccess application user.id).Uses P := by
      unfold applicationUserHasAccess
      apply uses_bind (uses_query.mpr hP)
      intro organization
      split_ifs
      · trivial
      · trivial
      · exact uses_bind (uses_query.mpr hP) fun _ => trivial
    exact uses_bind haccess fun _ => uses_throwIf

/-- What the scopes of a token are granted by. -/
def ScopesGranted (w : World) (input : OAuthTokenInput) (authorized : AuthorizedScopes)
    (t : World) : Prop :=
  ∀ scope ∈ authorized.scopes, isOidcScope scope = false →
    ∃ application ∈ w.db.applicationOf input, application.disabled = false ∧
      ∃ resource ∈ (truthy input.resource).bind w.db.findResourceByResourceUrl,
        ∃ now, w.clock ≤ now ∧ now ≤ t.clock ∧
          TokenGrants w.db now input application resource
            (input.actingOrganization w.db (w.db.applicationOf input)) scope

theorem untargetedScopes_spec [Platform] (application : ApplicationAggregate) (w : World) :
    (untargetedScopes input application).Meets undisturbed
      (onSuccess fun authorized _ => ∀ scope ∈ authorized.scopes, isOidcScope scope = true) w := by
  unfold untargetedScopes
  refine meets_throwIf (fun _ => trivial) fun _ => ?_
  cases input.user with
  | none =>
    intro scope hscope
    cases hscope
  | some user =>
    refine meets_call (undisturbed_clock _ w) fun _ t _ => ?_
    intro scope hscope
    exact (List.mem_filter.mp hscope).2

/-- The scopes from the Application that was found. -/
def scopesOfFound [Platform] (input : OAuthTokenInput) (found : Option ApplicationAggregate) :
    Request AuthorizedScopes :=
  match found.filter (fun application => !application.disabled) with
  | none => .pure { scopes := [], consentRequired := true }
  | some application => applicationScopes input application

/-- Alone, every scope of a resource is granted in the context in which the principal acts. -/
theorem authorizeAccessTokenScopes_spec [Platform] (input : OAuthTokenInput) (w : World) :
    (authorizeAccessTokenScopes input).Meets undisturbed
      (onSuccess (ScopesGranted w input)) w := by
  unfold authorizeAccessTokenScopes OAuthTokenInput.findApplication
  refine undisturbed_queryWhen fun w₁ h₁ => ?_
  change Meets undisturbed _ (scopesOfFound input (w.db.applicationOf input)) w₁
  unfold scopesOfFound
  cases hfound : (w.db.applicationOf input).filter fun application => !application.disabled with
  | none =>
    intro scope hscope
    cases hscope
  | some application =>
    obtain ⟨happlication, henabled⟩ := Option.filter_eq_some_iff.mp hfound
    have henabled : application.disabled = false := by simpa using henabled
    dsimp only
    unfold applicationScopes
    refine undisturbed_reads (requireApplicationUserAccess_reads (P := (· = .read)) rfl _ _ _) fun _ w₂ h₂ => ?_
    refine meets_throwIf (fun _ => trivial) fun _ => ?_
    have hw := h₁.trans h₂
    cases hresource : truthy input.resource with
    | none =>
      refine (untargetedScopes_spec application w₂).mono ?_
      rintro (e | authorized) t h
      · trivial
      · intro scope hscope hresourceScope
        simp [h scope hscope] at hresourceScope
    | some url =>
      refine (targetedScopes_spec input application url w₂).mono ?_
      rintro (e | authorized) t h
      · trivial
      · obtain ⟨resource, hmem, -, now, hfrom, hto, hall⟩ := h
        rw [hw.1] at hmem hall
        intro scope hscope hresourceScope
        refine ⟨application, happlication, henabled, resource, ?_, now, hw.2.2.trans hfrom, hto, ?_⟩
        · rw [hresource]
          exact hmem
        · rw [happlication]
          exact hall scope hscope hresourceScope

theorem applicationOf_owner {db : Database} (hnamed : db.OrganizationsNamed)
    {application : ApplicationAggregate} (h : application ∈ db.applicationOf input) :
    application.ownerOrganizationId ≠ "" := by
  obtain ⟨id, -, hmap⟩ := Option.bind_eq_some_iff.mp h
  obtain ⟨⟨app, client⟩, hfound, rfl⟩ := Option.map_eq_some_iff.mp hmap
  obtain ⟨row, hrow, hrest⟩ := Option.bind_eq_some_iff.mp hfound
  obtain ⟨_, -, hpair⟩ := Option.bind_eq_some_iff.mp hrest
  cases hpair
  exact hnamed.owners app (List.mem_of_find?_eq_some hrow)

/-- An option of a string that is not empty is one that counts as given. -/
theorem truthy_eq_self {value : Option String} (h : ∀ s ∈ value, s ≠ "") : truthy value = value := by
  cases value with
  | none => rfl
  | some s =>
    have hne := h s rfl
    simp [truthy, Option.filter, hne]

/-- Where the context is resolved, the organization of the claims is the one in whose context
the principal acts. -/
theorem truthy_claimOrganization {w t : World} (hnamed : w.db.OrganizationsNamed)
    {organizationId : Option String} (hnone : input.user = none → organizationId = none)
    (hsome : input.user ≠ none → ResolvesTo w
      (input.actingOrganization w.db (w.db.applicationOf input)) organizationId t) :
    truthy (input.claimOrganization (w.db.applicationOf input) organizationId) =
      input.actingOrganization w.db (w.db.applicationOf input) := by
  cases huser : input.user with
  | none =>
    have howner : input.actingOrganization w.db (w.db.applicationOf input) =
        (w.db.applicationOf input).map (·.ownerOrganizationId) := by
      simp [OAuthTokenInput.actingOrganization, huser]
    rw [howner, OAuthTokenInput.claimOrganization, hnone huser, Option.none_or, if_pos huser]
    apply truthy_eq_self
    intro id hid
    obtain ⟨application, happlication, rfl⟩ := Option.map_eq_some_iff.mp hid
    exact applicationOf_owner hnamed happlication
  | some user =>
    obtain ⟨-, hexpected, hfound⟩ := hsome (by simp [huser])
    rw [OAuthTokenInput.claimOrganization, if_neg (by simp [huser]), Option.or_none, ← hexpected]
    apply truthy_eq_self
    intro id hid
    obtain ⟨organization, hmem, rfl⟩ := hfound id hid
    exact hnamed.organizations organization hmem

/-- The claim that names the organization. -/
def organizationField (organizationId : Option String) : Record :=
  match organizationId with
  | some id => [(realmrootOrganizationClaim, .str id)]
  | none => []

/-- The organization claim is that of the context in which the principal acts. -/
theorem buildOAuthAccessTokenClaims_spec (input : OAuthTokenInput) {w : World}
    (hnamed : w.db.OrganizationsNamed) :
    (buildOAuthAccessTokenClaims input).Meets undisturbed
      (onSuccess fun claims _ => claims.field realmrootOrganizationClaim =
        (input.actingOrganization w.db (w.db.applicationOf input)).map Json.str) w := by
  unfold buildOAuthAccessTokenClaims OAuthTokenInput.findApplication
  refine undisturbed_queryWhen fun w₁ h₁ => ?_
  change Meets undisturbed _ (resolveOAuthOrganizationId input (w.db.applicationOf input)
    "access_denied" >>= _) w₁
  refine meets_call (resolveOAuthOrganizationId_spec input (w.db.applicationOf input)
    "access_denied" w₁) fun organizationId w₂ ⟨_, hnone, hsome⟩ => ?_
  refine meets_call (undisturbed_clock _ w₂) fun claims w₃ _ => ?_
  simp only [ResolvesTo, h₁.1] at hsome
  have horganization : truthy (input.claimOrganization (w.db.applicationOf input)
      organizationId) = input.actingOrganization w.db (w.db.applicationOf input) := by
    apply truthy_claimOrganization (t := w₂) hnamed hnone
    intro huser
    exact ⟨h₁.trans ‹_›, (hsome huser).2⟩
  change Record.field (_ ++ _ ++ organizationField (truthy (input.claimOrganization
    (w.db.applicationOf input) organizationId))) realmrootOrganizationClaim = _
  rw [horganization]
  unfold organizationField
  have hroles : (realmrootOrganizationClaim == "roles") = false := by decide
  have hgroups : (realmrootOrganizationClaim == "groups") = false := by decide
  cases input.actingOrganization w.db (w.db.applicationOf input) <;>
    split_ifs <;> simp [Record.field, List.lookup_cons, hroles, hgroups]

end Tokens

/-- For every database, Application, user, selection, resource and kind of grant: each scope
of a resource that a token carries was requested, is declared by the resource and configured
for the Application, is held by the principal in the context in which the principal acts, and
the user has consented to it where the Application asks for consent; and the organization
claim for the same input names that context. -/
theorem oauth_access_token_in_context [Platform] (input : OAuthTokenInput)
    {around around' : Surroundings World Reply} (hquiet : Quiescent around)
    (hquiet' : Quiescent around') {w w' : World} (hdb : w'.db = w.db)
    (hnamed : w.db.OrganizationsNamed) :
    (∀ scopes, ((filterOAuthAccessTokenScopes input).execute around 0 w).1 = .ok scopes →
      ∀ scope ∈ scopes, isOidcScope scope = false →
        ∃ application ∈ w.db.applicationOf input, application.disabled = false ∧
          ∃ resource ∈ (truthy input.resource).bind w.db.findResourceByResourceUrl,
            ∃ now, w.clock ≤ now ∧
              now ≤ ((filterOAuthAccessTokenScopes input).execute around 0 w).2.clock ∧
              TokenGrants w.db now input application resource
                (input.actingOrganization w.db (w.db.applicationOf input)) scope) ∧
    ∀ claims, ((buildOAuthAccessTokenClaims input).execute around' 0 w').1 = .ok claims →
      claims.field realmrootOrganizationClaim =
        (input.actingOrganization w.db (w.db.applicationOf input)).map Json.str := by
  constructor
  · intro scopes hscopes
    have hmeets : (filterOAuthAccessTokenScopes input).Meets undisturbed
        (onSuccess fun scopes t => ∀ scope ∈ scopes, isOidcScope scope = false →
          ∃ application ∈ w.db.applicationOf input, application.disabled = false ∧
            ∃ resource ∈ (truthy input.resource).bind w.db.findResourceByResourceUrl,
              ∃ now, w.clock ≤ now ∧ now ≤ t.clock ∧
                TokenGrants w.db now input application resource
                  (input.actingOrganization w.db (w.db.applicationOf input)) scope) w := by
      unfold filterOAuthAccessTokenScopes
      exact meets_call (authorizeAccessTokenScopes_spec input w) fun _ _ h => h
    have hrun := hmeets.execute around hquiet (fun _ => trivial) 0
    rw [hscopes] at hrun
    exact hrun
  · intro claims hclaims
    have hrun := (buildOAuthAccessTokenClaims_spec input (w := w') (hdb ▸ hnamed)).execute around'
      hquiet' (fun _ => trivial) 0
    rw [hclaims, hdb] at hrun
    exact hrun

/-! ## A user who selects an organization -/

namespace ContextExample

def resource : ApiResource :=
  { id := "files", identifier := "files", name := "Files", description := none
    resourceUrl := "https://files.example", authorizationModel := .native, connectorId := none
    authorizationDetails := [], enabled := true, ownerOrganizationId := "north"
    visibility := .private
    scopeRegistry := some { scopes := [⟨"read", none, .assigned⟩, ⟨"write", none, .assigned⟩] }
    availableToAgents := true, deletedAt := none, updatedAt := 0 }

def world : World where
  db :=
    { organizations := [{ id := "north", slug := "north", disabled := false }]
      members :=
        [{ id := "m1", organizationId := "north", userId := "ada", role := "owner", updatedAt := 0 }]
      apiResources := [resource]
      applications := [
        { id := "app", oauthClientId := "client", ownerOrganizationId := "north"
          visibility := .public, oidcScopes := ["openid"]
          resourceScopes := [{ resourceServerId := "files", scopes := ["read", "write"] }]
          tokenExchangePolicies := [], disabled := false, updatedAt := 0 }]
      oauthClients := [
        { clientId := "client", clientSecret := none, disabled := false, grantTypes := [] }]
      applicationConsents := [
        { id := "c1", applicationId := "app", userId := "ada", resourceServerId := some "files"
          scopes := ["read"], authorizationSource := .userConsent, grantedAt := 0
          expiresAt := none, revokedAt := none }] }
  clock := 10
  nextId := 0

def input : OAuthTokenInput :=
  { user := some { id := "ada", id_ne_empty := by decide }, scopes := ["openid", "read", "write"]
    resource := some "https://files.example", referenceId := some "organization:north"
    metadata := some [("applicationId", .str "app")], grantType := some "authorization_code" }

def still : Surroundings World Reply := { elapse := fun _ s => s, reply := fun _ => {} }

/-- The user holds both scopes in the organization and has consented to one of them. -/
theorem oauth_access_token_in_context_north :
    letI := samplePlatform
    ((filterOAuthAccessTokenScopes input).execute still 0 world).1 = .ok ["openid", "read"] ∧
      (∃ application ∈ world.db.applicationOf input, ∃ now,
        TokenGrants world.db now input application resource (some "north") "read") ∧
      ∀ claims, ((buildOAuthAccessTokenClaims input).execute still 0 world).1 = .ok claims →
        claims.field realmrootOrganizationClaim = some (.str "north") := by
  letI := samplePlatform
  have hquiet : Quiescent still := fun _ s => Undisturbed.refl s
  have hnamed : world.db.OrganizationsNamed := by
    constructor <;> decide
  have hscopes : ((filterOAuthAccessTokenScopes input).execute still 0 world).1 =
      .ok ["openid", "read"] := by decide +kernel
  have hacting : input.actingOrganization world.db (world.db.applicationOf input) =
      some "north" := by decide +kernel
  obtain ⟨hgranted, hclaims⟩ := oauth_access_token_in_context input hquiet hquiet rfl hnamed
  refine ⟨hscopes, ?_, ?_⟩
  · obtain ⟨application, happlication, -, found, hfound, now, -, -, hgrants⟩ :=
      hgranted _ hscopes "read" (by decide) (by decide)
    have hresource : found = resource := by
      have hone : (truthy input.resource).bind world.db.findResourceByResourceUrl =
          some resource := by decide +kernel
      rw [hone, Option.mem_some_iff] at hfound
      exact hfound.symm
    rw [hacting, hresource] at hgrants
    exact ⟨application, happlication, now, hgrants⟩
  · intro claims h
    rw [hclaims claims h, hacting]
    rfl

end ContextExample

end Realmroot
