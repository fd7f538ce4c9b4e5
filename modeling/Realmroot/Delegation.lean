import Realmroot.Library.Chained
import Realmroot.Rules
import Realmroot.Usecases.DelegatedExchange

/-!
# Delegation chains

What an exchange of delegated tokens keeps of its subject token and what it
lets through, first for one exchange and then along a chain of exchanges in
which every subject token is the token issued before.
-/

namespace Realmroot

open AtomicProgram Program

/-! ## Who holds which scope -/

/-- The roles of a membership give the scope at the resource. -/
def MembershipGives (db : Database) (resource : ApiResource) (scope : String)
    (membership : MemberRecord) : Prop :=
  ∃ scopes, membershipScopesForResource (db.listOrganizationRoleScopes membership.organizationId)
    membership.organizationId membership.roles (db.findResource resource.id) = .ok scopes ∧
      scope ∈ scopes

/-- The user holds the scope at the resource, acting in the given context: it is
declared, and automatic, granted, or given by a role. -/
def UserHolds (db : Database) (now : Time) (userId : String) (tenant : TenantContext)
    (resource : ApiResource) (scope : String) : Prop :=
  scope ∈ resource.declaredScopes ∧
    (scope ∈ automaticScopes resource ∨
      (∃ entitlement ∈ db.listActiveUserScopeEntitlements userId resource.id now,
        userEntitlementMatchesOrganization entitlement tenant ∧ entitlement.scope = scope) ∨
      ∃ membership ∈ tenantMemberships (db.listUserMemberships userId) tenant,
        MembershipGives db resource scope membership)

/-- The Application holds the scope at the resource. -/
def ApplicationHolds (db : Database) (now : Time) (application : ApplicationAggregate)
    (resource : ApiResource) (scope : String) : Prop :=
  resource.activeVisibleToOrganization application.ownerOrganizationId ∧
    scope ∈ resource.declaredScopes ∧
      (scope ∈ automaticScopes resource ∨
        ∃ entitlement ∈ db.listActiveApplicationScopeEntitlements application.id resource.id now,
          entitlement.scope = scope)

/-- The Application may request the scope at the resource: an OIDC scope of its
own, or one that is configured for the resource and that it holds. -/
def ApplicationMayRequest (db : Database) (now : Time) (application : ApplicationAggregate)
    (resource : ApiResource) (scope : String) : Prop :=
  scope ∈ application.oidcScopes ∨
    scope ∈ application.configuredScopes resource.id ∧
      ApplicationHolds db now application resource scope

theorem mem_currentRegistryScopes {resource : ApiResource} {scopes : List String}
    {scope : String} :
    scope ∈ currentRegistryScopes resource scopes ↔
      scope ∈ scopes ∧ scope ∈ resource.declaredScopes := by
  simp [currentRegistryScopes]

theorem membershipScopes_spec (organizationId : String) (roles : List String)
    (resourceId : String) (w : World) :
    (resolveOrganizationMembershipScopes organizationId roles resourceId).Meets undisturbed
      (onSuccess fun scopes t => Undisturbed w t ∧
        membershipScopesForResource (w.db.listOrganizationRoleScopes organizationId)
          organizationId roles (w.db.findResource resourceId) = .ok scopes) w := by
  unfold resolveOrganizationMembershipScopes
  refine meets_query fun s hs _ => ⟨trivial, ?_⟩
  refine meets_query fun t ht _ => ⟨trivial, ?_⟩
  have hw := hs.trans ht
  rw [hs.1, hw.1]
  split
  · rename_i scopes hscopes
    exact ⟨hw, hscopes⟩
  · trivial

/-- Alone, the effective scopes of a user are scopes that the user holds. -/
theorem userEffectiveResourceScopes_spec (userId : String) (resource : ApiResource) (now : Time)
    (organizationId : Option String) (w : World) :
    (userEffectiveResourceScopes userId resource now (tenantOf organizationId)).Meets undisturbed
      (onSuccess fun scopes t => Undisturbed w t ∧
        ∀ scope ∈ scopes, UserHolds w.db now userId (tenantOf organizationId) resource scope)
      w := by
  have htenant : tenantOf organizationId ≠ .unrestricted := by
    cases organizationId <;> simp [tenantOf]
  unfold userEffectiveResourceScopes
  refine meets_query fun s hs _ => ⟨trivial, ?_⟩
  simp only [htenant, false_and, if_false]
  refine meets_query fun t ht _ => ⟨trivial, ?_⟩
  have hw := hs.trans ht
  rw [hs.1, hw.1, Program.bind_eq, meets_bind]
  refine (meets_mapEach (Undisturbed w)
    (fun membership scopes => ∀ scope ∈ scopes, MembershipGives w.db resource scope membership)
    (fun _ _ => True) ?_ _ t hw).mono ?_
  · intro membership u hu
    refine (membershipScopes_spec membership.organizationId membership.roles resource.id u).mono ?_
    rintro (e | scopes) v hv
    · trivial
    · obtain ⟨huv, hscopes⟩ := hv
      rw [hu.1] at hscopes
      exact ⟨hu.trans huv, fun scope hscope => ⟨scopes, hscopes, hscope⟩⟩
  · rintro (e | memberScopes) u hu
    · trivial
    · obtain ⟨hwu, hgiven⟩ := hu
      refine ⟨hwu, fun scope hscope => ?_⟩
      rw [mem_currentRegistryScopes] at hscope
      obtain ⟨hmem, hdeclared⟩ := hscope
      refine ⟨hdeclared, ?_⟩
      rcases List.mem_append.mp hmem with hmem | hmember
      · rcases List.mem_append.mp hmem with hauto | hentitled
        · exact Or.inl hauto
        · obtain ⟨entitlement, hentitlement, rfl⟩ := List.mem_map.mp hentitled
          obtain ⟨hactive, hmatches⟩ := List.mem_filter.mp hentitlement
          exact Or.inr (Or.inl ⟨entitlement, hactive, hmatches, rfl⟩)
      · obtain ⟨scopes, hscopes, hscope⟩ := List.mem_flatten.mp hmember
        obtain ⟨i, hi, rfl⟩ := List.mem_iff_getElem.mp hscopes
        have hlength := hgiven.length_eq
        have hmembership := hgiven.get (by omega) hi
        refine Or.inr (Or.inr ⟨_, List.getElem_mem (by omega), hmembership scope hscope⟩)

/-- Alone, the effective scopes of an Application are scopes that it holds. -/
theorem applicationEffectiveResourceScopes_spec (application : ApplicationAggregate)
    (resource : ApiResource) (w : World) :
    (applicationEffectiveResourceScopes application resource).Meets undisturbed
      (onSuccess fun scopes t => Undisturbed w t ∧ ∃ now, w.clock ≤ now ∧ now ≤ t.clock ∧
        ∀ scope ∈ scopes, ApplicationHolds w.db now application resource scope) w := by
  unfold applicationEffectiveResourceScopes
  refine meets_currentTime fun s hs _ => ⟨trivial, ?_⟩
  split_ifs with hvisible
  · exact ⟨hs, s.clock, hs.2.2, le_rfl, fun scope hscope => absurd hscope List.not_mem_nil⟩
  · refine meets_query fun t ht _ => ⟨trivial, ?_⟩
    have hw := hs.trans ht
    refine ⟨hw, s.clock, hs.2.2, ht.2.2, fun scope hscope => ?_⟩
    rw [hw.1] at hscope
    obtain ⟨hheld, hdeclared⟩ := mem_currentRegistryScopes.mp hscope
    refine ⟨by simpa using hvisible, hdeclared, ?_⟩
    rcases List.mem_append.mp hheld with hauto | hentitled
    · exact Or.inl hauto
    · obtain ⟨entitlement, hentitlement, rfl⟩ := List.mem_map.mp hentitled
      exact Or.inr ⟨entitlement, hentitlement, rfl⟩

/-- Alone, the scopes that an Application resolves at a resource were requested, and
the Application may request them. -/
theorem resolveApplicationTokenScopes_spec (application : ApplicationAggregate)
    (resource : ApiResource) (requestedScope : Option String) (w : World) :
    (resolveApplicationTokenScopesForResource application resource requestedScope).Meets
      undisturbed (onSuccess fun scopes t => Undisturbed w t ∧ ∃ now, w.clock ≤ now ∧
        now ≤ t.clock ∧ ∀ scope ∈ scopes, scope ∈ requestedScopes requestedScope ∧
          ApplicationMayRequest w.db now application resource scope) w := by
  unfold resolveApplicationTokenScopesForResource
  simp only []
  split
  · trivial
  · rename_i requested hrequested
    have hallowed := normalizeScopes_eq_ok hrequested
    refine meets_call (applicationEffectiveResourceScopes_spec application resource w)
      fun effective t ⟨ht, now, hfrom, hto, hholds⟩ => ?_
    refine ⟨ht, now, hfrom, hto, fun scope hscope => ?_⟩
    obtain ⟨hmem, hkeep⟩ := List.mem_filter.mp hscope
    refine ⟨hallowed.1 ▸ hmem, ?_⟩
    by_cases hoidc : scope ∈ application.oidcScopes
    · exact Or.inl hoidc
    · have hconfigured : scope ∈ application.configuredScopes resource.id :=
        (List.mem_append.mp (hallowed.2 scope hmem)).resolve_left hoidc
      have heffective : scope ∈ effective := by simpa [hoidc] using hkeep
      exact Or.inr ⟨hconfigured, hholds scope heffective⟩

/-! ## One exchange -/

/-- The issuer and the subject of an actor claim. -/
def actorOf (claims : Record) : Option (Option String × Option String) :=
  (readRecord (claims.field "act")).map fun actor =>
    (readString (actor.field "iss"), readString (actor.field "sub"))

/-- Two tokens act for the same user, in the same organization, through the same
agent. -/
structure SameDelegation (previous issued : Record) : Prop where
  subject : readString (issued.field "sub") = readString (previous.field "sub")
  organization :
    issued.field realmrootOrganizationClaim = previous.field realmrootOrganizationClaim
  actor : actorOf issued = actorOf previous

theorem SameDelegation.trans {a b c : Record} (h : SameDelegation a b) (h' : SameDelegation b c) :
    SameDelegation a c :=
  ⟨h'.subject.trans h.subject, h'.organization.trans h.organization, h'.actor.trans h.actor⟩

/-- Both tokens expire, the issued one not later. -/
def ExpiresWithin (previous issued : Record) : Prop :=
  ∃ before after, readNumber (previous.field "exp") = some before ∧
    readNumber (issued.field "exp") = some after ∧ after ≤ before

/-- The scopes of a token. -/
def scopesOf (claims : Record) : List String := parseSpaceSeparatedClaim (claims.field "scope")

/-- A policy of the Application maps a scope of the previous token to the scope. -/
def MappedFrom (application : ApplicationAggregate) (sourceId targetId : String)
    (previous : Record) (scope : String) : Prop :=
  ∃ mappings, .resource sourceId targetId mappings ∈ application.tokenExchangePolicies ∧
    ∃ mapping ∈ mappings, mapping.targetScope = scope ∧ mapping.sourceScope ∈ scopesOf previous

/-- What one exchange lets through: the scopes of the issued token are not empty and
hold no `offline_access`, and each of them was requested, is allowed for the
Application and for the user at the target, and is mapped from the previous token. -/
structure ScopesBounded (db : Database) (start finish : Time) (application : ApplicationAggregate)
    (input : TokenExchangeRequest) (previous issued : Record) : Prop where
  nonempty : scopesOf issued ≠ []
  no_offline_access : "offline_access" ∉ scopesOf issued
  bounded : ∃ source target, db.findResourceByResourceUrl input.audience = some target ∧
    ∀ scope ∈ scopesOf issued, scope ∈ requestedScopes input.scope ∧
      (∃ now, start ≤ now ∧ now ≤ finish ∧
        ApplicationMayRequest db now application target scope) ∧
      (∃ now user organizationId, start ≤ now ∧ now ≤ finish ∧
        readString (previous.field "sub") = some user ∧
        previous.field realmrootOrganizationClaim = organizationId.map Json.str ∧
        UserHolds db now user (tenantOf organizationId) target scope) ∧
      MappedFrom application source target.id previous scope

section Payload

variable {issuer jti : String} {input : JwtAccessTokenInput}

theorem accessTokenPayload_sub :
    (accessTokenPayload issuer input jti).field "sub" = some (.str input.subject) := rfl

theorem accessTokenPayload_scope : (accessTokenPayload issuer input jti).field "scope" =
    some (.str (joinWithSpace input.scopes)) := rfl

theorem accessTokenPayload_organization :
    (accessTokenPayload issuer input jti).field realmrootOrganizationClaim =
      input.claims.field realmrootOrganizationClaim := by
  unfold accessTokenPayload
  cases input.claims.field realmrootOrganizationClaim <;> cases input.actor <;> rfl

theorem accessTokenPayload_act : (accessTokenPayload issuer input jti).field "act" =
    input.actor.map fun actor => .obj [("iss", .str actor.iss), ("sub", .str actor.sub)] := by
  unfold accessTokenPayload
  cases input.claims.field realmrootOrganizationClaim <;> cases input.actor <;> rfl

theorem accessTokenPayload_exp : (accessTokenPayload issuer input jti).field "exp" =
    some (.num (toSeconds input.expiresAt)) := by
  unfold accessTokenPayload
  cases input.claims.field realmrootOrganizationClaim <;> cases input.actor <;> rfl

end Payload

/-- The scopes that a token carries are the ones that were joined into its claim. -/
theorem mem_scopesOf_payload {issuer jti : String} {input : JwtAccessTokenInput}
    (htokens : ∀ scope ∈ input.scopes, IsScopeToken scope) {scope : String} :
    scope ∈ scopesOf (accessTokenPayload issuer input jti) ↔ scope ∈ input.scopes := by
  simp [scopesOf, accessTokenPayload_scope, parseSpaceSeparatedClaim,
    splitWhiteSpace_joinWithSpace htokens]

/-- The issued token expires in a second that is not after the claim. -/
theorem delegatedExpiresAt_le (now : Time) {expiresAt : ℚ} (hpos : 0 ≤ expiresAt) :
    ((toSeconds (delegatedExpiresAt now expiresAt) : ℕ) : ℚ) ≤ expiresAt := by
  have hmin : (0 : ℚ) ≤ min ((now + delegatedUserExpiresInSeconds * 1000 : ℕ) : ℚ)
      (expiresAt * 1000) := by
    apply le_min
    · exact Nat.cast_nonneg _
    · positivity
  have hfloor : ((delegatedExpiresAt now expiresAt : ℕ) : ℚ) ≤ expiresAt * 1000 := by
    have hnat : ((delegatedExpiresAt now expiresAt : ℕ) : ℤ) =
        (min ((now + delegatedUserExpiresInSeconds * 1000 : ℕ) : ℚ) (expiresAt * 1000)).floor := by
      exact Int.toNat_of_nonneg (Int.floor_nonneg.mpr hmin)
    have hle := Int.floor_le
      (min ((now + delegatedUserExpiresInSeconds * 1000 : ℕ) : ℚ) (expiresAt * 1000))
    calc ((delegatedExpiresAt now expiresAt : ℕ) : ℚ)
        = ((delegatedExpiresAt now expiresAt : ℤ) : ℚ) := by norm_cast
      _ = ((min ((now + delegatedUserExpiresInSeconds * 1000 : ℕ) : ℚ)
            (expiresAt * 1000)).floor : ℚ) := by rw [hnat]
      _ ≤ expiresAt * 1000 := hle.trans (min_le_right _ _)
  have hseconds : ((toSeconds (delegatedExpiresAt now expiresAt) * 1000 : ℕ) : ℚ) ≤
      ((delegatedExpiresAt now expiresAt : ℕ) : ℚ) := by
    exact_mod_cast Nat.div_mul_le_self _ _
  push_cast at hseconds
  linarith

theorem requireActiveDelegatedUser_reads (subject : String) :
    (requireActiveDelegatedUser subject).Uses (· = Command.read) := by
  unfold requireActiveDelegatedUser
  refine uses_bind (uses_query.mpr rfl) fun _ => uses_bind uses_orThrow fun _ => uses_throwIf

theorem requireSourceAuthority_reads [Platform] (input : TokenExchangeRequest) (claims : Record)
    (sourceResource : ApiResource) (owner sourceClientId : String)
    (identity : Option AgentIdentity) (sourceApplication : Option ApplicationAggregate) :
    (requireSourceAuthority input claims sourceResource owner sourceClientId identity
      sourceApplication).Uses (· = Command.read) := by
  unfold requireSourceAuthority
  split_ifs
  · refine uses_bind (uses_currentTime.mpr rfl) fun _ => ?_
    refine uses_bind (uses_query.mpr rfl) fun _ => ?_
    refine uses_bind uses_orThrow fun _ => ?_
    refine uses_bind (uses_query.mpr rfl) fun _ => ?_
    exact uses_bind uses_orThrow fun _ => trivial
  · exact uses_bind uses_orThrow fun _ => trivial

/-- The actor of the issued token is the actor of the subject token. -/
theorem requireActiveDelegatedAgent_spec [Platform] (input : TokenExchangeRequest)
    (claims : Record) (sourceResource : ApiResource) (owner controllerUserId : String)
    (organizationId : Option String) (actor : Record) (w : World) :
    (requireActiveDelegatedAgent input claims sourceResource owner controllerUserId
      organizationId actor).Meets undisturbed (onSuccess fun delegated t => Undisturbed w t ∧
        readString (actor.field "iss") = some delegated.iss ∧
          readString (actor.field "sub") = some delegated.sub) w := by
  unfold requireActiveDelegatedAgent
  refine meets_orThrow (fun _ => trivial) fun issuer hissuer => ?_
  refine meets_orThrow (fun _ => trivial) fun subject hsubject => ?_
  refine meets_orThrow (fun _ => trivial) fun _ _ => ?_
  refine meets_orThrow (fun _ => trivial) fun sourceClientId _ => ?_
  refine undisturbed_reads (uses_query.mpr rfl) fun _ _ h₁ => ?_
  refine undisturbed_reads (uses_queryWhen rfl) fun _ _ h₂ => ?_
  refine undisturbed_reads (uses_queryWhen rfl) fun _ _ h₃ => ?_
  refine undisturbed_reads (uses_queryWhen rfl) fun _ _ h₄ => ?_
  refine undisturbed_reads (requireSourceAuthority_reads ..) fun _ _ h₅ => ?_
  refine undisturbed_reads (uses_queryWhen rfl) fun _ _ h₆ => ?_
  refine meets_orThrow (fun _ => trivial) fun _ _ => ?_
  refine meets_throwIf (fun _ => trivial) fun _ => ?_
  have hw := ((((h₁.trans h₂).trans h₃).trans h₄).trans h₅).trans h₆
  exact ⟨hw, hissuer, hsubject⟩

/-- What a successful exchange issues, relative to the claims of its subject token. -/
def Issues (signer : TokenExchangeJwtSigner) (application : ApplicationAggregate)
    (input : TokenExchangeRequest) (w : World) (response : TokenExchangeResponse) (t : World) :
    Prop :=
  ∃ previous issued, input.verifiedSubjectClaims = some previous ∧
    response.accessToken = signer.sign issued "at+jwt" ∧
    SameDelegation previous issued ∧ ExpiresWithin previous issued ∧
    ScopesBounded w.db w.clock t.clock application input previous issued

theorem readSubjectClaims_eq_some {claims : Record} {issuer : String} {read : SubjectClaims}
    (h : readSubjectClaims claims issuer = some read) :
    readString (claims.field "sub") = some read.subject ∧
      readNumber (claims.field "exp") = some read.expiresAt := by
  unfold readSubjectClaims at h
  split at h
  · rename_i hsub _ hexp
    split_ifs at h
    cases h
    exact ⟨hsub, hexp⟩
  · cases h

theorem readOrganizationClaim_eq_ok {claims : Record} {organizationId : Option String}
    (h : readOrganizationClaim claims = .ok organizationId) :
    claims.field realmrootOrganizationClaim = organizationId.map Json.str := by
  unfold readOrganizationClaim at h
  split at h
  · rename_i hnone
    cases h
    exact hnone
  · rename_i value hvalue
    split at h
    · rename_i id hid
      cases h
      rw [hvalue, (readString_eq_some hid).1]
      rfl
    · cases h

theorem readActorClaim_eq_ok {claims : Record} {actor : Option Record}
    (h : readActorClaim claims = .ok actor) : claims.field "act" = actor.map Json.obj := by
  unfold readActorClaim at h
  split at h <;> first | (cases h; assumption) | cases h

theorem findResourcePolicy_mem {application : ApplicationAggregate} {sourceId targetId : String}
    {mappings : List ScopeMapping}
    (h : findResourcePolicy application sourceId targetId = some mappings) :
    .resource sourceId targetId mappings ∈ application.tokenExchangePolicies := by
  obtain ⟨policy, hpolicy, hmatch⟩ := List.exists_of_findSome?_eq_some h
  cases policy with
  | resource source target found =>
    simp only [Option.ite_none_right_eq_some, Option.some.injEq] at hmatch
    obtain ⟨⟨rfl, rfl⟩, rfl⟩ := hmatch
    exact hpolicy
  | identity _ _ => cases hmatch

/-- The claims that the issued token copies make it the same delegation. -/
theorem sameDelegation_payload {previous : Record} {issuer jti : String}
    {input : JwtAccessTokenInput} {organizationId : Option String} {actor : Option Record}
    (hsubject : readString (previous.field "sub") = some input.subject)
    (horganization : previous.field realmrootOrganizationClaim = organizationId.map Json.str)
    (hclaims : input.claims.field realmrootOrganizationClaim = organizationId.map Json.str)
    (hactor : previous.field "act" = actor.map Json.obj)
    (hnone : actor = none → input.actor = none)
    (hsome : ∀ fields, actor = some fields → ∃ delegated, input.actor = some delegated ∧
      readString (fields.field "iss") = some delegated.iss ∧
        readString (fields.field "sub") = some delegated.sub) :
    SameDelegation previous (accessTokenPayload issuer input jti) := by
  have hne := (readString_eq_some hsubject).2
  refine ⟨?_, ?_, ?_⟩
  · rw [accessTokenPayload_sub, hsubject, readString_str hne]
  · rw [accessTokenPayload_organization, hclaims, horganization]
  · unfold actorOf
    rw [accessTokenPayload_act, hactor]
    cases actor with
    | none =>
      rw [hnone rfl]
      rfl
    | some fields =>
      obtain ⟨delegated, hdelegated, hiss, hsub⟩ := hsome fields rfl
      have hiss' := readString_str (readString_eq_some hiss).2
      have hsub' := readString_str (readString_eq_some hsub).2
      rw [hdelegated]
      simp only [Option.map_some, readRecord, hiss, hsub, Option.some.injEq, Prod.mk.injEq]
      exact ⟨hiss', hsub'⟩

theorem requireDelegatedActor_spec [Platform] (input : TokenExchangeRequest) (claims : Record)
    (sourceResource : ApiResource) (owner controllerUserId : String)
    (organizationId : Option String) (actor : Option Record) (w : World) :
    (requireDelegatedActor input claims sourceResource owner controllerUserId organizationId
      actor).Meets undisturbed (onSuccess fun delegated t => Undisturbed w t ∧
        (actor = none → delegated = none) ∧
          ∀ fields, actor = some fields → ∃ found, delegated = some found ∧
            readString (fields.field "iss") = some found.iss ∧
              readString (fields.field "sub") = some found.sub) w := by
  cases actor with
  | none =>
    refine ⟨Undisturbed.refl w, fun _ => rfl, ?_⟩
    intro fields h
    cases h
  | some fields =>
    refine meets_call (requireActiveDelegatedAgent_spec input claims sourceResource owner
      controllerUserId organizationId fields w) fun delegated t ht => ?_
    obtain ⟨hw, hiss, hsub⟩ := ht
    refine ⟨hw, ?_, ?_⟩
    · intro h
      cases h
    · rintro _ ⟨rfl⟩
      exact ⟨delegated, rfl, hiss, hsub⟩

/-- The scopes that pass all filters of an exchange are bounded as they have to be. -/
theorem scopesBounded_payload {db : Database} {start finish now checkedAt : Time}
    {application : ApplicationAggregate} {input : TokenExchangeRequest} {previous : Record}
    {issuer jti : String} {jwt : JwtAccessTokenInput} {organizationId : Option String}
    {source target : ApiResource} {mappings : List ScopeMapping}
    {applicationScopes userScopes : List String}
    (htarget : db.findResourceByResourceUrl input.audience = some target)
    (hpolicy : findResourcePolicy application source.id target.id = some mappings)
    (hsubject : readString (previous.field "sub") = some jwt.subject)
    (horganization : previous.field realmrootOrganizationClaim = organizationId.map Json.str)
    (hnow : start ≤ now ∧ now ≤ finish) (hchecked : start ≤ checkedAt ∧ checkedAt ≤ finish)
    (happlication : ∀ scope ∈ applicationScopes, scope ∈ requestedScopes input.scope ∧
      ApplicationMayRequest db now application target scope)
    (huser : ∀ scope ∈ userScopes,
      UserHolds db checkedAt jwt.subject (tenantOf organizationId) target scope)
    (hscopes : jwt.scopes = applicationScopes.filter fun scope =>
      (mappedTargetScopes mappings source (scopesOf previous)).contains scope &&
        userScopes.contains scope)
    (hnonempty : ¬ (jwt.scopes = [] ∨ jwt.scopes.contains "offline_access" = true)) :
    ScopesBounded db start finish application input previous
      (accessTokenPayload issuer jwt jti) := by
  have hfilter : ∀ scope ∈ jwt.scopes, scope ∈ applicationScopes ∧ scope ∈ userScopes ∧
      scope ∈ mappedTargetScopes mappings source (scopesOf previous) := by
    intro scope hscope
    rw [hscopes, List.mem_filter] at hscope
    obtain ⟨hmem, hkeep⟩ := hscope
    simp only [Bool.and_eq_true, List.contains_iff_mem] at hkeep
    exact ⟨hmem, hkeep.2, hkeep.1⟩
  have htokens : ∀ scope ∈ jwt.scopes, IsScopeToken scope := fun scope hscope =>
    isScopeToken_of_mem_requestedScopes (happlication scope (hfilter scope hscope).1).1
  rw [not_or] at hnonempty
  refine ⟨?_, ?_, source.id, target, htarget, ?_⟩
  · intro hempty
    obtain ⟨scope, hscope⟩ := List.exists_mem_of_ne_nil _ hnonempty.1
    have hmem : scope ∈ scopesOf (accessTokenPayload issuer jwt jti) :=
      (mem_scopesOf_payload htokens).mpr hscope
    rw [hempty] at hmem
    exact List.not_mem_nil hmem
  · intro hoffline
    exact hnonempty.2 (List.contains_iff_mem.mpr ((mem_scopesOf_payload htokens).mp hoffline))
  · intro scope hscope
    obtain ⟨happ, hheld, hmapped⟩ := hfilter scope ((mem_scopesOf_payload htokens).mp hscope)
    obtain ⟨hrequested, hallowed⟩ := happlication scope happ
    refine ⟨hrequested, ⟨now, hnow.1, hnow.2, hallowed⟩, ?_, ?_⟩
    · exact ⟨checkedAt, jwt.subject, organizationId, hchecked.1, hchecked.2, hsubject,
        horganization, huser scope hheld⟩
    · obtain ⟨mapping, hmapping, rfl⟩ := List.mem_map.mp hmapped
      obtain ⟨hmem, hsource⟩ := List.mem_filter.mp hmapping
      simp only [Bool.and_eq_true, List.contains_iff_mem] at hsource
      exact ⟨mappings, findResourcePolicy_mem hpolicy, mapping, hmem, rfl, hsource.1⟩

/-- Alone, a successful exchange issues a token for the same delegation, that does not
outlive its subject token, and whose scopes are bounded. -/
theorem exchangeDelegatedUserToken_spec [Platform] (input : TokenExchangeRequest)
    (clientId : String) (application : ApplicationAggregate) (signer : TokenExchangeJwtSigner)
    (w : World) :
    (exchangeDelegatedUserToken input clientId application signer).Meets undisturbed
      (onSuccess (Issues signer application input w)) w := by
  unfold exchangeDelegatedUserToken
  refine meets_orThrow (fun _ => trivial) fun previous hprevious => ?_
  refine meets_orThrow (fun _ => trivial) fun subjectClaims hclaims => ?_
  obtain ⟨hsubject, hexp⟩ := readSubjectClaims_eq_some hclaims
  refine meets_currentTime fun w₁ h₁ _ => ⟨trivial, ?_⟩
  refine meets_throwIf (fun _ => trivial) fun hlive => ?_
  refine undisturbed_reads (requireActiveDelegatedUser_reads _) fun _ w₂ h₂ => ?_
  refine meets_query fun w₃ h₃ _ => ⟨trivial, ?_⟩
  refine meets_query fun w₄ h₄ _ => ⟨trivial, ?_⟩
  have hw₄ : Undisturbed w w₄ := ((h₁.trans h₂).trans h₃).trans h₄
  refine meets_orThrow (fun _ => trivial) fun source _ => ?_
  refine meets_orThrow (fun _ => trivial) fun target htarget => ?_
  rw [hw₄.1] at htarget
  have htarget := (Option.filter_eq_some_iff.mp htarget).1
  refine meets_orThrow (fun _ => trivial) fun mappings hpolicy => ?_
  refine meets_call (resolveApplicationTokenScopes_spec application target input.scope w₄)
    fun applicationScopes w₅ ⟨h₅, now, hfrom, hto, happlication⟩ => ?_
  rw [hw₄.1] at happlication
  have hw₅ := hw₄.trans h₅
  split
  · trivial
  · trivial
  rename_i organizationId actor horganization hactor
  have horganization := readOrganizationClaim_eq_ok horganization
  have hactor := readActorClaim_eq_ok hactor
  refine meets_throwIf (fun _ => trivial) fun _ => ?_
  refine meets_throwIf (fun _ => trivial) fun _ => ?_
  refine meets_throwIf (fun _ => trivial) fun _ => ?_
  refine meets_call (requireDelegatedActor_spec input previous source
    application.ownerOrganizationId subjectClaims.subject organizationId actor w₅)
    fun delegated w₆ ⟨h₆, hnone, hsome⟩ => ?_
  refine meets_currentTime fun w₇ h₇ _ => ⟨trivial, ?_⟩
  have hw₇ := (hw₅.trans h₆).trans h₇
  refine meets_call (userEffectiveResourceScopes_spec subjectClaims.subject target
    w₇.clock organizationId w₇) fun userScopes w₈ ⟨h₈, huser⟩ => ?_
  rw [hw₇.1] at huser
  refine meets_throwIf (fun _ => trivial) fun hnonempty => ?_
  refine meets_currentTime fun w₉ h₉ _ => ⟨trivial, ?_⟩
  intro reply w₁₀ _ h₁₀
  have hlast : w₅.clock ≤ w₁₀.clock :=
    h₆.2.2.trans (h₇.2.2.trans (h₈.2.2.trans (h₉.2.2.trans h₁₀.2.2)))
  refine ⟨previous, _, hprevious, rfl, ?_, ?_, ?_⟩
  · refine sameDelegation_payload hsubject horganization ?_ hactor hnone hsome
    cases organizationId <;> rfl
  · refine ⟨subjectClaims.expiresAt, _, hexp, ?_, delegatedExpiresAt_le w₉.clock ?_⟩
    · rw [accessTokenPayload_exp]
      rfl
    · have hnow : (0 : ℚ) ≤ (toSeconds w₁.clock : ℚ) := Nat.cast_nonneg _
      exact hnow.trans (not_le.mp hlive).le
  · exact scopesBounded_payload htarget hpolicy hsubject horganization
      ⟨hw₄.2.2.trans hfrom, hto.trans hlast⟩
      ⟨hw₇.2.2, h₈.2.2.trans (h₉.2.2.trans h₁₀.2.2)⟩ happlication huser rfl hnonempty

end Realmroot
