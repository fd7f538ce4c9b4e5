import Realmroot.OAuthContexts
import Realmroot.TokenSystem
import Realmroot.Library.Alone

/-!
# Organization tokens

An exchange of an access token keeps its organization claim. Where the token names an agent, the
user has to be a member of the organization. Where it names none, the organization only selects
the entitlements and the roles that count, and the automatic scopes count in any case.
-/

namespace Realmroot

open AtomicProgram Program

/-! ## The scopes at a moment -/

namespace Database

variable (db : Database)

/-- The organization is there and not disabled, and the user is a member of it. -/
def LiveMember (organizationId userId : String) : Prop :=
  (db.findOrganization organizationId).any (fun organization => !organization.disabled) = true ∧
    (db.findMemberByOrganizationUser organizationId userId).isSome = true

instance (organizationId userId : String) : Decidable (db.LiveMember organizationId userId) :=
  inferInstanceAs (Decidable (_ ∧ _))

/-- The effective scopes of an Application at a resource. -/
def applicationScopes (application : ApplicationAggregate) (resource : ApiResource) (now : Time) :
    List String :=
  if !resource.activeVisibleToOrganization application.ownerOrganizationId then []
  else currentRegistryScopes resource (automaticScopes resource ++
    (db.listActiveApplicationScopeEntitlements application.id resource.id now).map (·.scope))

/-- The scopes that an Application resolves at a resource. -/
def applicationTokenScopes (application : ApplicationAggregate) (resource : ApiResource)
    (requestedScope : Option String) (now : Time) : Except Error (List String) :=
  (normalizeScopes requestedScope
    (application.oidcScopes ++ application.configuredScopes resource.id)).map
      fun requested => requested.filter fun scope => application.oidcScopes.contains scope ||
        (db.applicationScopes application resource now).contains scope

/-- What the memberships of the user in the tenant give at a resource. -/
def memberScopes (userId : String) (resource : ApiResource) (tenant : TenantContext) :
    Except Error (List (List String)) :=
  (tenantMemberships (db.listUserMemberships userId) tenant).mapM fun membership =>
    membershipScopesForResource (db.listOrganizationRoleScopes membership.organizationId)
      membership.organizationId membership.roles (db.findResource resource.id)

/-- The effective scopes of a user at a resource, in the context of a tenant. -/
def userScopes (userId : String) (resource : ApiResource) (now : Time) (tenant : TenantContext) :
    Except Error (List String) :=
  (db.memberScopes userId resource tenant).map fun memberScopes =>
    currentRegistryScopes resource (automaticScopes resource ++
      ((db.listActiveUserScopeEntitlements userId resource.id now).filter fun entitlement =>
        userEntitlementMatchesOrganization entitlement tenant).map (·.scope) ++
      memberScopes.flatten)

end Database

section Settled

variable {w : World}

theorem applicationTokenScopes_settled (application : ApplicationAggregate)
    (resource : ApiResource) (requestedScope : Option String) :
    (resolveApplicationTokenScopesForResource application resource requestedScope).settled {} w =
      w.db.applicationTokenScopes application resource requestedScope w.clock := by
  unfold resolveApplicationTokenScopesForResource Database.applicationTokenScopes
  dsimp only
  cases normalizeScopes requestedScope
      (application.oidcScopes ++ application.configuredScopes resource.id) with
  | error e => rfl
  | ok requested =>
    change settled ({} : Reply) (Program.bind _ _) w = _
    rw [settled_bind]
    have heffective : (applicationEffectiveResourceScopes application resource).settled {} w =
        .ok (w.db.applicationScopes application resource w.clock) := by
      unfold applicationEffectiveResourceScopes Database.applicationScopes
      change settled ({} : Reply) (ite _ _ _) w = _
      split_ifs <;> rfl
    rw [heffective]
    rfl

theorem settled_query {α : Type} (read : Database → α) :
    (query read).settled {} w = .ok (read w.db) := rfl

/-- The scopes that the roles of a member give at rest. -/
theorem settled_resolveOrganizationMembershipScopes (organizationId : String) (roles : List String)
    (resourceId : String) :
    (resolveOrganizationMembershipScopes organizationId roles resourceId).settled {} w =
      membershipScopesForResource (w.db.listOrganizationRoleScopes organizationId) organizationId
        roles (w.db.findResource resourceId) := by
  unfold resolveOrganizationMembershipScopes
  simp only [Program.bind_eq, settled_bind, settled_query]
  cases membershipScopesForResource (w.db.listOrganizationRoleScopes organizationId)
    organizationId roles (w.db.findResource resourceId) <;> rfl

theorem userScopes_settled (userId : String) (resource : ApiResource) (now : Time)
    (organizationId : Option String) :
    (userEffectiveResourceScopes userId resource now (tenantOf organizationId)).settled {} w =
      w.db.userScopes userId resource now (tenantOf organizationId) := by
  have htenant : tenantOf organizationId ≠ .unrestricted := by
    cases organizationId <;> simp [tenantOf]
  unfold userEffectiveResourceScopes Database.userScopes
  change settled ({} : Reply) (ite _ _ _) w = _
  simp only [htenant, false_and, if_false]
  change settled ({} : Reply) (Program.bind _ _) w = _
  rw [settled_bind]
  change settled ({} : Reply) (Program.bind _ _) w = _
  rw [settled_bind, settled_mapEach]
  have hmember : (fun membership : MemberRecord =>
      (resolveOrganizationMembershipScopes membership.organizationId membership.roles
        resource.id).settled {} w) = fun membership =>
      membershipScopesForResource (w.db.listOrganizationRoleScopes membership.organizationId)
        membership.organizationId membership.roles (w.db.findResource resource.id) := by
    funext membership
    exact settled_resolveOrganizationMembershipScopes _ _ _
  rw [hmember]
  change _ = (w.db.memberScopes userId resource (tenantOf organizationId)).map _
  unfold Database.memberScopes
  cases (tenantMemberships (w.db.listUserMemberships userId) (tenantOf organizationId)).mapM
      fun membership => membershipScopesForResource
        (w.db.listOrganizationRoleScopes membership.organizationId) membership.organizationId
        membership.roles (w.db.findResource resource.id) <;> rfl

end Settled

theorem mapM_eq_ok_of_forall₂ {β γ : Type} {f : β → Except Error γ} {bs : List β} {cs : List γ}
    (h : List.Forall₂ (fun b c => f b = .ok c) bs cs) : bs.mapM f = .ok cs := by
  induction h with
  | nil => rfl
  | cons hhead _ ih =>
    rw [List.mapM_cons, hhead, ih]
    rfl

/-- Alone, an Application resolves the scopes of some moment meanwhile. -/
theorem resolveApplicationTokenScopes_ok (application : ApplicationAggregate)
    (resource : ApiResource) (requestedScope : Option String) (w : World) :
    (resolveApplicationTokenScopesForResource application resource requestedScope).Meets
      undisturbed (onSuccess fun scopes t => Undisturbed w t ∧ ∃ now, w.clock ≤ now ∧
        now ≤ t.clock ∧
          w.db.applicationTokenScopes application resource requestedScope now = .ok scopes) w := by
  unfold resolveApplicationTokenScopesForResource Database.applicationTokenScopes
  dsimp only
  cases normalizeScopes requestedScope
      (application.oidcScopes ++ application.configuredScopes resource.id) with
  | error e => trivial
  | ok requested =>
    have heffective : (applicationEffectiveResourceScopes application resource).Meets undisturbed
        (onSuccess fun scopes t => Undisturbed w t ∧ ∃ now, w.clock ≤ now ∧ now ≤ t.clock ∧
          w.db.applicationScopes application resource now = scopes) w := by
      unfold applicationEffectiveResourceScopes Database.applicationScopes
      apply meets_currentTime
      intro s hs _
      refine ⟨trivial, ?_⟩
      split_ifs with hvisible
      · exact ⟨hs, s.clock, hs.2.2, le_rfl, rfl⟩
      · apply meets_query
        intro t ht _
        have hw := hs.trans ht
        refine ⟨trivial, hw, s.clock, hs.2.2, ht.2.2, ?_⟩
        rw [hw.1]
    apply meets_call heffective
    rintro effective t ⟨ht, now, hfrom, hto, rfl⟩
    exact ⟨ht, now, hfrom, hto, rfl⟩

/-- Alone, the effective scopes of a user are those of the moment at which they are asked for. -/
theorem userEffectiveResourceScopes_ok (userId : String) (resource : ApiResource) (now : Time)
    (organizationId : Option String) (w : World) :
    (userEffectiveResourceScopes userId resource now (tenantOf organizationId)).Meets undisturbed
      (onSuccess fun scopes t => Undisturbed w t ∧
        w.db.userScopes userId resource now (tenantOf organizationId) = .ok scopes) w := by
  have htenant : tenantOf organizationId ≠ .unrestricted := by
    cases organizationId <;> simp [tenantOf]
  unfold userEffectiveResourceScopes Database.userScopes Database.memberScopes
  apply meets_query
  intro s hs _
  refine ⟨trivial, ?_⟩
  simp only [htenant, false_and, if_false]
  apply meets_query
  intro t ht _
  refine ⟨trivial, ?_⟩
  have hw := hs.trans ht
  rw [hs.1, hw.1, Program.bind_eq, meets_bind]
  have hmembers := meets_mapEach (Undisturbed w)
    (fun membership scopes =>
      membershipScopesForResource (w.db.listOrganizationRoleScopes membership.organizationId)
        membership.organizationId membership.roles (w.db.findResource resource.id) = .ok scopes)
    (fun _ _ => True)
    (fun (membership : MemberRecord) u hu =>
      (membershipScopes_spec membership.organizationId membership.roles resource.id u).mono <| by
        rintro (e | scopes) v hv
        · trivial
        · obtain ⟨huv, hscopes⟩ := hv
          rw [hu.1] at hscopes
          exact ⟨hu.trans huv, hscopes⟩)
    (tenantMemberships (w.db.listUserMemberships userId) (tenantOf organizationId)) t hw
  refine hmembers.mono ?_
  rintro (e | memberScopes) u hu
  · trivial
  · obtain ⟨hwu, hgiven⟩ := hu
    refine ⟨hwu, ?_⟩
    rw [mapM_eq_ok_of_forall₂ hgiven]
    rfl

/-! ## Agents -/

/-- Alone, an agent is only let through when the controller is a member of the organization. -/
theorem requireActiveDelegatedAgent_live [Platform] (input : TokenExchangeRequest)
    (claims : Record) (sourceResource : ApiResource) (owner controllerUserId : String)
    (organizationId : String) (actor : Record) (w : World) :
    (requireActiveDelegatedAgent input claims sourceResource owner controllerUserId
      (some organizationId) actor).Meets undisturbed
        (onSuccess fun _ t => Undisturbed w t ∧ w.db.LiveMember organizationId controllerUserId)
        w := by
  unfold requireActiveDelegatedAgent
  apply meets_orThrow (fun _ => trivial)
  intro issuer _
  apply meets_orThrow (fun _ => trivial)
  intro subject _
  apply meets_orThrow (fun _ => trivial)
  intro _ _
  apply meets_orThrow (fun _ => trivial)
  intro sourceClientId _
  apply undisturbed_reads (uses_query.mpr rfl)
  intro identity w₁ h₁
  apply undisturbed_reads (uses_queryWhen rfl)
  intro application w₂ h₂
  have hw₂ := h₁.trans h₂
  apply undisturbed_queryWhen
  intro w₃ h₃
  apply undisturbed_queryWhen
  intro w₄ h₄
  have hw₄ := (hw₂.trans h₃).trans h₄
  apply undisturbed_reads (requireSourceAuthority_reads ..)
  intro binding w₅ h₅
  apply undisturbed_reads (uses_queryWhen rfl)
  intro aggregate w₆ h₆
  apply meets_orThrow (fun _ => trivial)
  intro _ _
  apply meets_throwIf (fun _ => trivial)
  intro hlive
  have hw₃ := hw₂.trans h₃
  refine ⟨(hw₄.trans h₅).trans h₆, ?_⟩
  rw [hw₂.1, hw₃.1] at hlive
  unfold Database.LiveMember
  simp only [Option.bind_some, Option.isSome_some, true_and, not_or] at hlive
  refine ⟨?_, ?_⟩
  · have hnot := hlive.1
    cases horganization : w.db.findOrganization organizationId with
    | none => simp [horganization] at hnot
    | some organization => simpa [horganization] using hnot
  · have hmember := hlive.2
    cases hfound : w.db.findMemberByOrganizationUser organizationId controllerUserId with
    | none => simp [hfound] at hmember
    | some member => rfl

/-! ## Users -/

/-- What an exchange finds of a subject token that names no agent. -/
structure UserDelegation (db : Database) (issuer : String) (application : ApplicationAggregate)
    (input : TokenExchangeRequest) (claims : Record) where
  read : SubjectClaims
  user : User
  source : ApiResource
  target : ApiResource
  mappings : List ScopeMapping
  organizationId : Option String
  claims_eq : readSubjectClaims claims issuer = some read
  user_found : db.findUser read.subject = some user
  user_active : user.banned = false
  source_found : db.findResourceByResourceUrl read.sourceAudience = some source
  source_visible : source.activeVisibleToOrganization application.ownerOrganizationId = true
  target_found : db.findResourceByResourceUrl input.audience = some target
  target_visible : target.activeVisibleToOrganization application.ownerOrganizationId = true
  policy : findResourcePolicy application source.id target.id = some mappings
  organization_eq : readOrganizationClaim claims = .ok organizationId
  direct : readActorClaim claims = .ok none

namespace UserDelegation

variable {db : Database} {issuer : String} {application : ApplicationAggregate}
  {input : TokenExchangeRequest} {claims : Record}
  (d : UserDelegation db issuer application input claims)

/-- The scopes that survive: the Application resolves them at one moment, the policy maps to
them, and the user holds them at another moment. -/
def Survive (granted checked : Time) (scopes : List String) : Prop :=
  ∃ applicationScopes userScopes,
    db.applicationTokenScopes application d.target input.scope granted = .ok applicationScopes ∧
      db.userScopes d.read.subject d.target checked (tenantOf d.organizationId) = .ok userScopes ∧
        scopes = applicationScopes.filter fun scope =>
          (mappedTargetScopes d.mappings d.source
            (parseSpaceSeparatedClaim (claims.field "scope"))).contains scope &&
              userScopes.contains scope

/-- The token is not expired at the start, and scopes survive, but no `offline_access`. -/
def Gives (start granted checked : Time) : Prop :=
  (toSeconds start : ℚ) < d.read.expiresAt ∧ ∃ scopes, d.Survive granted checked scopes ∧
    scopes ≠ [] ∧ "offline_access" ∉ scopes

end UserDelegation

/-- Alone, only a user who is there and not banned is let through. -/
theorem requireActiveDelegatedUser_ok (subject : String) (w : World) :
    (requireActiveDelegatedUser subject).Meets undisturbed
      (onSuccess fun _ t => Undisturbed w t ∧
        ∃ user, w.db.findUser subject = some user ∧ user.banned = false) w := by
  unfold requireActiveDelegatedUser
  apply meets_query
  intro t ht _
  refine ⟨trivial, ?_⟩
  rw [ht.1]
  apply meets_orThrow (fun _ => trivial)
  intro user huser
  unfold throwIf
  split_ifs with hbanned
  · trivial
  · exact ⟨ht, user, huser, by simpa using hbanned⟩

/-! ## Exchanges -/

section Rules

variable {w : World}

theorem orThrow_settled {γ : Type} {error : Error} {value : Option γ} {a : γ}
    (h : value = some a) : (orThrow error value).settled ({} : Reply) w = .ok a := by
  rw [h]
  rfl

theorem throwIf_settled {condition : Prop} [Decidable condition] {error : Error}
    (h : ¬ condition) : (throwIf condition error).settled ({} : Reply) w = .ok () := by
  unfold throwIf
  rw [if_neg h]
  rfl

theorem UserDelegation.user_settled {db : Database} {issuer : String}
    {application : ApplicationAggregate} {input : TokenExchangeRequest} {claims : Record}
    (d : UserDelegation db issuer application input claims) (hdb : w.db = db) :
    (requireActiveDelegatedUser d.read.subject).settled ({} : Reply) w = .ok () := by
  subst hdb
  unfold requireActiveDelegatedUser
  change settled ({} : Reply) (Program.bind (orThrow _ _) _) w = _
  rw [settled_bind, orThrow_settled d.user_found]
  exact throwIf_settled (by simp [d.user_active])

/-- The rest of a request, once a part that only reads has its result. -/
theorem undisturbed_settled {γ δ : Type} {p : Request γ} {next : γ → Request δ}
    {post : Except Error δ → World → Prop} (hp : p.Uses (· = .read))
    (h : (p >>= next).Meets undisturbed post w) {a : γ} (ha : p.settled ({} : Reply) w = .ok a) :
    (next a).Meets undisturbed post w := by
  refine Meets.settled (Undisturbed.refl w) trivial (fun _ _ => trivial) ?_ hp h ha
  rintro c rfl
  rfl

/-- Time may pass before a request begins. -/
theorem undisturbed_later {γ : Type} {p : Request γ} {Q : Prop} {t : Time}
    (h : p.Meets undisturbed (onSuccess fun _ _ => Q) w) (ht : w.clock ≤ t) :
    p.Meets undisturbed (onSuccess fun _ _ => Q) { w with clock := t } :=
  Meets.stable Undisturbed.trans (by
    rintro (error | a) _ _ hpost _
    · trivial
    · exact hpost) h ⟨rfl, rfl, ht⟩

end Rules

section Exchange

variable [Platform] {input : TokenExchangeRequest} {clientId : String}
  {application : ApplicationAggregate} {signer : TokenExchangeJwtSigner} {w : World}
  {claims : Record} {organizationId user : String}

/-- Alone, an exchange that succeeds has found a live member or a delegation of the user. -/
theorem exchangeDelegatedUserToken_live
    (hclaims : input.verifiedSubjectClaims = some claims)
    (horganization : claims.field realmrootOrganizationClaim = some (.str organizationId))
    (hsubject : claims.field "sub" = some (.str user)) :
    (exchangeDelegatedUserToken input clientId application signer).Meets undisturbed
      (onSuccess fun _ _ =>
        ((claims.field "act").isSome = true → w.db.LiveMember organizationId user) ∧
          (claims.field "act" = none →
            ∃ d : UserDelegation w.db signer.issuer application input claims,
              ∃ start granted checked, w.clock ≤ start ∧ start ≤ granted ∧ granted ≤ checked ∧
                d.Gives start granted checked)) w := by
  unfold exchangeDelegatedUserToken
  apply meets_orThrow (fun _ => trivial)
  intro found hfound
  rw [hclaims, Option.some.injEq] at hfound
  subst hfound
  apply meets_orThrow (fun _ => trivial)
  intro read hread
  have huser : read.subject = user := by
    have hsub := (readSubjectClaims_eq_some hread).1
    rw [hsubject] at hsub
    have hvalue := (readString_eq_some hsub).1
    simpa using hvalue.symm
  apply meets_currentTime
  intro w₁ h₁ _
  refine ⟨trivial, ?_⟩
  apply meets_throwIf (fun _ => trivial)
  intro hexpires
  apply meets_call (requireActiveDelegatedUser_ok read.subject w₁)
  rintro _ w₂ ⟨h₂, account, haccount, hactive⟩
  rw [h₁.1] at haccount
  have hw₂ := h₁.trans h₂
  apply meets_query
  intro w₃ h₃ _
  refine ⟨trivial, ?_⟩
  apply meets_query
  intro w₄ h₄ _
  refine ⟨trivial, ?_⟩
  have hw₃ := hw₂.trans h₃
  have hw₄ := hw₃.trans h₄
  apply meets_orThrow (fun _ => trivial)
  intro source hsource
  apply meets_orThrow (fun _ => trivial)
  intro target htarget
  rw [hw₃.1] at hsource
  rw [hw₄.1] at htarget
  obtain ⟨hsource, hsourceVisible⟩ := Option.filter_eq_some_iff.mp hsource
  obtain ⟨htarget, htargetVisible⟩ := Option.filter_eq_some_iff.mp htarget
  apply meets_orThrow (fun _ => trivial)
  intro mappings hpolicy
  apply meets_call
    (resolveApplicationTokenScopes_ok application target input.scope w₄)
  rintro applicationScopes w₅ ⟨h₅, granted, hfrom, hto, hgranted⟩
  rw [hw₄.1] at hgranted
  have hw₅ := hw₄.trans h₅
  split
  · trivial
  · trivial
  rename_i found actor hfound hactor
  have hclaim := readOrganizationClaim_eq_ok hfound
  rw [horganization] at hclaim
  obtain rfl : found = some organizationId := by
    cases found with
    | none => cases hclaim
    | some id => simpa using hclaim.symm
  have hact := readActorClaim_eq_ok hactor
  apply meets_throwIf (fun _ => trivial)
  intro _
  apply meets_throwIf (fun _ => trivial)
  intro _
  apply meets_throwIf (fun _ => trivial)
  intro _
  cases actor with
  | some actor =>
    -- an agent: its controller is a live member
    have hagent : (requireDelegatedActor input claims source application.ownerOrganizationId
        read.subject (some organizationId) (some actor)).Meets undisturbed
          (onSuccess fun _ t => w.db.LiveMember organizationId user) w₅ := by
      unfold requireDelegatedActor
      apply meets_call (requireActiveDelegatedAgent_live ..)
      rintro delegated t ⟨_, hlive⟩
      rw [hw₅.1, huser] at hlive
      exact hlive
    apply meets_call hagent
    intro delegated w₆ hlive
    apply (undisturbed_clock _ w₆).mono
    rintro (error | response) _ _
    · trivial
    · refine ⟨fun _ => hlive, fun hnone => ?_⟩
      rw [hact] at hnone
      cases hnone
  | none =>
    -- a user: the delegation that the checks have found
    apply meets_currentTime
    intro w₆ h₆ _
    refine ⟨trivial, ?_⟩
    have hw₆ := hw₅.trans h₆
    apply meets_call
      (userEffectiveResourceScopes_ok read.subject target w₆.clock (some organizationId) w₆)
    rintro userScopes w₇ ⟨h₇, hheld⟩
    rw [hw₆.1] at hheld
    apply meets_throwIf (fun _ => trivial)
    intro hscopes
    apply (undisturbed_clock _ w₇).mono
    rintro (error | response) _ _
    · trivial
    rw [not_or] at hscopes
    refine ⟨fun hsome => ?_, fun _ => ⟨{
      read := read, user := account, source := source, target := target, mappings := mappings
      organizationId := some organizationId, claims_eq := hread, user_found := haccount
      user_active := hactive, source_found := hsource, source_visible := hsourceVisible
      target_found := htarget, target_visible := htargetVisible, policy := hpolicy
      organization_eq := hfound, direct := hactor }, w₁.clock, granted, w₆.clock, h₁.2.2,
      ?_, ?_, ?_, _, ⟨applicationScopes, userScopes, hgranted, hheld, rfl⟩, hscopes.1, ?_⟩⟩
    · rw [hact] at hsome
      cases hsome
    · exact (h₂.2.2.trans (h₃.2.2.trans h₄.2.2)).trans hfrom
    · exact hto.trans h₆.2.2
    · exact not_le.mp hexpires
    · simpa using hscopes.2

/-- Where a delegation gives something, an exchange can succeed. -/
theorem UserDelegation.succeeds {Q : Prop} (hclaims : input.verifiedSubjectClaims = some claims)
    (h : (exchangeDelegatedUserToken input clientId application signer).Meets undisturbed
      (onSuccess fun _ _ => Q) w)
    (d : UserDelegation w.db signer.issuer application input claims)
    {start granted checked : Time} (hstart : w.clock ≤ start) (hgranted : start ≤ granted)
    (hchecked : granted ≤ checked) (hgives : d.Gives start granted checked) : Q := by
  obtain ⟨hexpires, scopes, ⟨applicationScopes, userScopes, happlication, huser, rfl⟩, hsome,
    hoffline⟩ := hgives
  -- at the start
  replace h := undisturbed_later h hstart
  unfold exchangeDelegatedUserToken at h
  replace h := undisturbed_settled uses_orThrow h (orThrow_settled hclaims)
  replace h := undisturbed_settled uses_orThrow h (orThrow_settled d.claims_eq)
  replace h := undisturbed_settled (uses_currentTime.mpr rfl) h rfl
  replace h := undisturbed_settled uses_throwIf h (throwIf_settled (not_le.mpr hexpires))
  replace h := undisturbed_settled (requireActiveDelegatedUser_reads _) h (d.user_settled rfl)
  replace h := undisturbed_settled (uses_query.mpr rfl) h rfl
  replace h := undisturbed_settled (uses_query.mpr rfl) h rfl
  replace h := undisturbed_settled uses_orThrow h (a := d.source) (orThrow_settled
    (Option.filter_eq_some_iff.mpr ⟨d.source_found, d.source_visible⟩))
  replace h := undisturbed_settled uses_orThrow h (a := d.target) (orThrow_settled
    (Option.filter_eq_some_iff.mpr ⟨d.target_found, d.target_visible⟩))
  replace h := undisturbed_settled uses_orThrow h (orThrow_settled d.policy)
  -- when the scopes of the Application are resolved
  replace h := undisturbed_later h (t := granted) hgranted
  replace h := undisturbed_settled
    (resolveApplicationTokenScopesForResource_reads (P := (· = .read)) rfl _ _ _) h
    ((applicationTokenScopes_settled _ _ _).trans happlication)
  simp only [d.organization_eq, d.direct] at h
  replace h := undisturbed_settled uses_throwIf h (throwIf_settled (by simp))
  replace h := undisturbed_settled uses_throwIf h (throwIf_settled (by simp))
  replace h := undisturbed_settled uses_throwIf h (throwIf_settled (by simp))
  -- when the scopes of the user are resolved
  replace h := undisturbed_later h (t := checked) hchecked
  replace h := undisturbed_settled (uses_currentTime.mpr rfl) h rfl
  replace h := undisturbed_settled
    (userEffectiveResourceScopes_reads (P := (· = .read)) rfl _ _ _ _) h
    ((userScopes_settled _ _ _ _).trans huser)
  replace h := undisturbed_settled uses_throwIf h (throwIf_settled (by
    simpa only [not_or, List.contains_iff_mem] using ⟨hsome, hoffline⟩))
  replace h := undisturbed_settled (uses_currentTime.mpr rfl) h rfl
  exact h {} _ trivial (Undisturbed.refl _)

/-- Every exchange alone of a token of an organization that succeeds is one for a live member
exactly when the token names an agent, or the user is a live member, or no delegation of the
user gives anything. -/
theorem exchange_needs_membership (hclaims : input.verifiedSubjectClaims = some claims)
    (horganization : claims.field realmrootOrganizationClaim = some (.str organizationId))
    (hsubject : claims.field "sub" = some (.str user)) :
    (∀ around, Quiescent around → ∀ response,
      ((exchangeDelegatedUserToken input clientId application signer).execute around 0 w).1 =
        .ok response → w.db.LiveMember organizationId user) ↔
      (claims.field "act").isSome = true ∨ w.db.LiveMember organizationId user ∨
        ∀ d : UserDelegation w.db signer.issuer application input claims,
          ∀ start granted checked, w.clock ≤ start → start ≤ granted → granted ≤ checked →
            ¬ d.Gives start granted checked := by
  constructor
  · intro hruns
    by_cases hact : (claims.field "act").isSome = true
    · exact Or.inl hact
    by_cases hlive : w.db.LiveMember organizationId user
    · exact Or.inr (Or.inl hlive)
    refine Or.inr (Or.inr ?_)
    intro d start granted checked hstart hgranted hchecked hgives
    have hmeets : (exchangeDelegatedUserToken input clientId application signer).Meets undisturbed
        (onSuccess fun _ _ => w.db.LiveMember organizationId user) w := by
      refine meets_of_execute Undisturbed.refl {} trivial 0 ?_
      intro around hquiet _
      have hrun := hruns around hquiet
      cases hresult : ((exchangeDelegatedUserToken input clientId application signer).execute
          around 0 w).1 with
      | error e => trivial
      | ok response => exact hrun response hresult
    exact hlive (d.succeeds hclaims hmeets hstart hgranted hchecked hgives)
  · intro hcondition around hquiet response hok
    have hspec : (exchangeDelegatedUserToken input clientId application signer).Meets undisturbed
        _ w := exchangeDelegatedUserToken_live hclaims horganization hsubject
    have hrun := Meets.execute around hquiet (fun _ => trivial) hspec 0
    rw [hok] at hrun
    rcases hcondition with hact | hlive | hnone
    · exact hrun.1 hact
    · exact hlive
    · cases hact : claims.field "act" with
      | some actor => exact hrun.1 (by rw [hact]; rfl)
      | none =>
        obtain ⟨d, start, granted, checked, hstart, hgranted, hchecked, hgives⟩ := hrun.2 hact
        exact absurd hgives (hnone d start granted checked hstart hgranted hchecked)

end Exchange

namespace RemovedMemberExample

attribute [local instance] samplePlatform

def resource (id url : String) : ApiResource :=
  { id := id, identifier := id, name := id, description := none, resourceUrl := url
    authorizationModel := .native, connectorId := none, authorizationDetails := []
    enabled := true, ownerOrganizationId := "realm", visibility := .public
    scopeRegistry := some { scopes := [⟨"read", none, .automatic⟩] }
    availableToAgents := true, deletedAt := none, updatedAt := 0 }

def application : ApplicationAggregate :=
  { id := "app", clientId := "client", ownerOrganizationId := "realm", visibility := .private
    oidcScopes := [], resourceScopes := [{ resourceServerId := "files", scopes := ["read"] }]
    tokenExchangePolicies := [.resource "mail" "files" [⟨"read", "read"⟩]], disabled := false }

def organization : Organization := { id := "acme", slug := "acme", disabled := false }

def world (members : List Member) : World :=
  { db :=
      { users := [{ id := "ada", banned := false, deletedAt := none }]
        organizations := [organization], members := members
        apiResources := [resource "mail" "https://mail", resource "files" "https://files"] }
    clock := 0, nextId := 0 }

def ada : Member :=
  { id := "membership", organizationId := "acme", userId := "ada", role := "member"
    updatedAt := 0 }

def claims : Record :=
  [("iss", .str "realmroot"), ("sub", .str "ada"), ("aud", .str "https://mail"),
    ("exp", .num 1000), ("scope", .str "read"), (realmrootOrganizationClaim, .str "acme")]

def input (scope : String) : TokenExchangeRequest :=
  { grantType := tokenExchangeGrantType, subjectToken := "token"
    subjectTokenType := accessTokenType, audience := "https://files", scope := some scope
    requestedTokenType := none, verifiedSubjectClaims := some claims }

def signer : TokenExchangeJwtSigner where
  issuer := "realmroot"
  sign payload _ := (readString (payload.field realmrootOrganizationClaim)).getD ""

def still : Surroundings World Reply where
  elapse _ w := w
  reply _ := {}

theorem still_quiet : Quiescent still := fun _ w => Undisturbed.refl w

/-- A user who is no longer a member exchanges a token of the organization. -/
theorem exchange_not_live :
    ¬ ∀ around, Quiescent around → ∀ response,
      ((exchangeDelegatedUserToken (input "read") "client" application signer).execute around 0
        (world [])).1 = .ok response → (world []).db.LiveMember "acme" "ada" := by
  intro hlive
  have hok : ((exchangeDelegatedUserToken (input "read") "client" application signer).execute still
      0 (world [])).1 = .ok { accessToken := "acme", issuedTokenType := accessTokenType
                              expiresIn := 300, scope := "read", refreshToken := none } := by
    decide +kernel
  have hmember := hlive still still_quiet _ hok
  revert hmember
  decide +kernel

/-- While the user is a member, every exchange is one for a live member. -/
theorem exchange_needs_membership_member :
    (world [ada]).db.LiveMember "acme" "ada" ∧
      ∀ around, Quiescent around → ∀ response,
        ((exchangeDelegatedUserToken (input "read") "client" application signer).execute around 0
          (world [ada])).1 = .ok response → (world [ada]).db.LiveMember "acme" "ada" := by
  have hlive : (world [ada]).db.LiveMember "acme" "ada" := by decide +kernel
  exact ⟨hlive, (exchange_needs_membership rfl rfl rfl).mpr (Or.inr (Or.inl hlive))⟩

end RemovedMemberExample

end Realmroot
