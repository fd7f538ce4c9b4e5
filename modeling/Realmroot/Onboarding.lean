import Realmroot.Database
import Realmroot.Library.Claims
import Realmroot.Passwords

/-!
# Onboarding

The first user of an installation is an administrator, who gets a password and owns the platform
organization. Nobody signs up before there is one. Any number of onboarding calls and of sign-ups
are in progress, and one onboarding call succeeds at most.
-/

namespace Realmroot

open AtomicProgram Program

namespace Onboarding

/-! ## Tables -/

structure User where
  id : String
  name : String
  username : Option String
  email : String
  emailVerified : Bool := false
  role : Option String := none
  deriving DecidableEq

structure Account where
  id : String
  accountId : String
  providerId : String
  userId : String
  password : Option String
  deriving DecidableEq

structure Organization where
  id : String
  slug : String
  name : String
  metadata : String
  deriving DecidableEq

structure Member where
  id : String
  organizationId : String
  userId : String
  role : String
  deriving DecidableEq

structure Store where
  users : List User := []
  accounts : List Account := []
  organizations : List Organization := []
  members : List Member := []

/-! ## The batch -/

structure BootstrapAdminInput where
  email : String
  name : String
  username : Option String
  passwordHash : String

/-- What `ids.generate()` gives for the rows. -/
structure BootstrapIds where
  userId : String
  accountId : String
  memberId : String
  platformOrganizationId : String

/-- `platformOrganization`. -/
def platformSlug : String := "realmroot"

def platformOrganization (id : String) : Organization :=
  { id
    slug := platformSlug
    name := "Realmroot Platform"
    metadata := "\x7b\"realmroot\":\x7b\"platform\":true\x7d\x7d" }

def admin (ids : BootstrapIds) (input : BootstrapAdminInput) : User :=
  { id := ids.userId
    name := input.name
    username := input.username
    email := input.email
    emailVerified := true
    role := some "admin" }

def credential (ids : BootstrapIds) (input : BootstrapAdminInput) : Account :=
  { id := ids.accountId
    accountId := ids.userId
    providerId := "credential"
    userId := ids.userId
    password := some input.passwordHash }

def owner (ids : BootstrapIds) (organization : Organization) : Member :=
  { id := ids.memberId
    organizationId := organization.id
    userId := ids.userId
    role := "owner" }

/-- `exists (select 1 from user where id = ?2 and role = 'admin')`. -/
def isAdmin (userId : String) (s : Store) : Bool :=
  s.users.any fun user => user.id = userId && user.role = some "admin"

/-- The user, when there is none, with `meta.changes`. -/
def insertFirstUser (ids : BootstrapIds) (input : BootstrapAdminInput) (s : Store) : ℕ × Store :=
  if s.users = [] then (1, { s with users := [admin ids input] }) else (0, s)

def insertCredential (ids : BootstrapIds) (input : BootstrapAdminInput) (s : Store) :
    Except Error (ℕ × Store) :=
  if isAdmin ids.userId s then
    if s.accounts.any fun account => account.id = ids.accountId then
      .error (.constraint "account")
    else .ok (1, { s with accounts := s.accounts ++ [credential ids input] })
  else .ok (0, s)

/-- `on conflict(slug) do nothing`. -/
def insertPlatformOrganization (ids : BootstrapIds) (s : Store) : Except Error Store :=
  if s.organizations.any fun organization => organization.slug = platformSlug then .ok s
  else if s.organizations.any fun organization => organization.id = ids.platformOrganizationId then
    .error (.constraint "organization")
  else .ok { s with
    organizations := s.organizations ++ [platformOrganization ids.platformOrganizationId] }

/-- The slug is unique, so that one organization has it at most. -/
def insertOwner (ids : BootstrapIds) (s : Store) : Except Error Store :=
  match s.organizations.find? fun organization => organization.slug = platformSlug with
  | none => .ok s
  | some organization =>
    if isAdmin ids.userId s && !(s.members.any fun member =>
        member.organizationId = organization.id && member.userId = ids.userId) then
      if s.members.any fun member => member.id = ids.memberId then .error (.constraint "member")
      else .ok { s with members := s.members ++ [owner ids organization] }
    else .ok s

/-- The changes of the first two statements, and the tables after the batch. -/
def bootstrapAdmin (ids : BootstrapIds) (input : BootstrapAdminInput) (s : Store) :
    Except Error ((ℕ × ℕ) × Store) := do
  let (userInsert, s) := insertFirstUser ids input s
  let (accountInsert, s) ← insertCredential ids input s
  let s ← insertPlatformOrganization ids s
  let s ← insertOwner ids s
  return ((userInsert, accountInsert), s)

inductive Command where
  | hasUsers
  | bootstrapAdmin (ids : BootstrapIds) (input : BootstrapAdminInput)
  /-- A user signs up. -/
  | insertUser (row : User)

instance : Executes Command Store where
  exec
    | .hasUsers, s => s
    | .bootstrapAdmin ids input, s =>
      match Onboarding.bootstrapAdmin ids input s with
      | .ok (_, s') => s'
      | .error _ => s
    | .insertUser row, s =>
      if s.users.any fun user => user.id = row.id || user.email = row.email ||
          user.username.isSome && user.username = row.username then s
      else { s with users := s.users ++ [row] }

/-! ## Programs -/

/-- `onboardingAdminRequestSchema`. -/
structure OnboardingAdminRequest where
  email : String
  password : String
  name : String
  username : Option String

structure BootstrapUser where
  id : String
  email : String
  role : String
  deriving DecidableEq

/-- What a call reads from outside: an identifier, a salt, or how the resource server of the
installation was ensured. -/
structure Reply where
  id : String := ""
  salt : List UInt8 := []
  ensured : Except Error Unit := .ok ()

abbrev OnboardingProgram (α : Type) := Program Command Store Reply Error α

def locked : Error :=
  .api 403 .forbidden "Onboarding is locked after the first user exists."

/-- `ids.generate()`. -/
def generate : OnboardingProgram String := .ask fun reply => .pure reply.id

/-- What `createBootstrapAdmin` makes of the changes. -/
def bootstrapped (ids : BootstrapIds) (input : BootstrapAdminInput) (s : Store) :
    OnboardingProgram BootstrapUser :=
  match bootstrapAdmin ids input s with
  | .error e => .throw e
  | .ok ((userInsert, accountInsert), _) =>
    if userInsert ≠ 1 ∨ accountInsert ≠ 1 then .throw locked
    else .pure { id := ids.userId, email := input.email, role := "admin" }

def createBootstrapAdmin (input : BootstrapAdminInput) : OnboardingProgram BootstrapUser := do
  let userId ← generate
  let accountId ← generate
  let memberId ← generate
  let platformOrganizationId ← generate
  let ids : BootstrapIds := { userId, accountId, memberId, platformOrganizationId }
  .call (.bootstrapAdmin ids input) (bootstrapped ids input)

section Routes

variable [KeyDerivation]

/-- What is stored for a request, with the salt that is drawn. -/
def OnboardingAdminRequest.hashed (request : OnboardingAdminRequest) (salt : List UInt8) :
    BootstrapAdminInput :=
  { email := request.email
    name := request.name
    username := request.username
    passwordHash := hashPassword request.password salt }

/-- The resource server of the installation is ensured at last. -/
def ensured (user : BootstrapUser) : OnboardingProgram BootstrapUser :=
  .ask fun reply =>
    match reply.ensured with
    | .ok () => .pure user
    | .error e => .throw e

/-- The route `/admin-users`, with what `readJson` makes of the body. -/
def createAdminUser (body : Except Error OnboardingAdminRequest) :
    OnboardingProgram BootstrapUser :=
  .call .hasUsers fun s =>
    if s.users ≠ [] then .throw locked
    else
      match body with
      | .error e => .throw e
      | .ok request =>
        .ask fun reply => (createBootstrapAdmin (request.hashed reply.salt)).bind ensured

/-- `requireOnboardingComplete`, and a flow that signs a user up. -/
def signUp (row : User) : OnboardingProgram Unit :=
  .call .hasUsers fun s =>
    if s.users = [] then
      .throw (.api 403 .forbidden "Complete first-admin onboarding before using auth flows.")
    else .call (.insertUser row) fun _ => .pure ()

end Routes

inductive Request where
  | createAdminUser (body : Except Error OnboardingAdminRequest)
  | signUp (row : User)

/-- Whatever else the server does: users keep their keys and their rows. -/
structure Event where
  edit : User → User
  accounts : List Account
  organizations : List Organization
  members : List Member

/-- The result of an onboarding call is the user, and that of a sign-up is none. -/
def system [KeyDerivation] : System Command Store Reply Error (Option BootstrapUser) Request Event
    where
  program
    | .createAdminUser body => (createAdminUser body).bind fun user => .pure (some user)
    | .signUp row => (signUp row).bind fun _ => .pure none
  environment event s :=
    { users := s.users.map fun user => { event.edit user with id := user.id }
      accounts := event.accounts
      organizations := event.organizations
      members := event.members }

/-! ## What the batch does -/

section Batch

variable {ids : BootstrapIds} {input : BootstrapAdminInput} {s s' : Store}

/-- The first administrator has a credential and is a member of the platform organization. -/
structure Bootstrapped (ids : BootstrapIds) (input : BootstrapAdminInput) (s : Store) : Prop where
  users : s.users = [admin ids input]
  credential : credential ids input ∈ s.accounts
  member : ∃ organization ∈ s.organizations, organization.slug = platformSlug ∧
    ∃ member ∈ s.members, member.organizationId = organization.id ∧ member.userId = ids.userId

theorem insertCredential_ok {changes : ℕ} (h : insertCredential ids input s = .ok (changes, s')) :
    s'.users = s.users ∧
      (isAdmin ids.userId s = true → changes = 1 ∧ credential ids input ∈ s'.accounts) := by
  unfold insertCredential at h
  split_ifs at h with hadmin hconflict
  · cases h
    exact ⟨rfl, fun _ => ⟨rfl, List.mem_append_right _ List.mem_cons_self⟩⟩
  · cases h
    exact ⟨rfl, fun hadmin' => absurd hadmin' hadmin⟩

theorem insertPlatformOrganization_ok (h : insertPlatformOrganization ids s = .ok s') :
    s'.users = s.users ∧ s'.accounts = s.accounts ∧ s'.members = s.members ∧
      ∃ organization ∈ s'.organizations, organization.slug = platformSlug := by
  unfold insertPlatformOrganization at h
  split_ifs at h with hslug hconflict
  · cases h
    obtain ⟨organization, hmem, horganization⟩ := List.any_eq_true.mp hslug
    exact ⟨rfl, rfl, rfl, organization, hmem, of_decide_eq_true horganization⟩
  · cases h
    exact ⟨rfl, rfl, rfl, _, List.mem_append_right _ List.mem_cons_self, rfl⟩

theorem insertOwner_ok (h : insertOwner ids s = .ok s') :
    s'.users = s.users ∧ s'.accounts = s.accounts ∧ s'.organizations = s.organizations := by
  unfold insertOwner at h
  split at h
  · cases h
    exact ⟨rfl, rfl, rfl⟩
  · split_ifs at h
    · cases h
      exact ⟨rfl, rfl, rfl⟩
    · cases h
      exact ⟨rfl, rfl, rfl⟩

theorem insertOwner_member (h : insertOwner ids s = .ok s') (hadmin : isAdmin ids.userId s = true)
    (hplatform : ∃ organization ∈ s.organizations, organization.slug = platformSlug) :
    ∃ organization ∈ s'.organizations, organization.slug = platformSlug ∧
      ∃ member ∈ s'.members,
        member.organizationId = organization.id ∧ member.userId = ids.userId := by
  have horganizations := (insertOwner_ok h).2.2
  unfold insertOwner at h
  cases hfind : s.organizations.find? fun organization => organization.slug = platformSlug with
  | none =>
    obtain ⟨organization, hmem, hslug⟩ := hplatform
    simpa [hslug] using List.find?_eq_none.mp hfind organization hmem
  | some organization =>
    have hmem : organization ∈ s'.organizations :=
      horganizations ▸ List.mem_of_find?_eq_some hfind
    have hslug : organization.slug = platformSlug := by simpa using List.find?_some hfind
    rw [hfind] at h
    simp only [hadmin, Bool.true_and] at h
    split_ifs at h with hnew hconflict
    · cases h
      exact ⟨organization, hmem, hslug, owner ids organization,
        List.mem_append_right _ List.mem_cons_self, rfl, rfl⟩
    · cases h
      have hold : (s.members.any fun member =>
          member.organizationId = organization.id && member.userId = ids.userId) = true := by
        simpa using hnew
      obtain ⟨member, hmember, hkeys⟩ := List.any_eq_true.mp hold
      simp only [Bool.and_eq_true, decide_eq_true_eq] at hkeys
      exact ⟨organization, hmem, hslug, member, hmember, hkeys⟩

/-- Where there is no user, the batch creates the administrator, as it should. -/
theorem bootstrapAdmin_free {changes : ℕ × ℕ} (hfree : s.users = [])
    (h : bootstrapAdmin ids input s = .ok (changes, s')) :
    changes = (1, 1) ∧ Bootstrapped ids input s' := by
  unfold bootstrapAdmin insertFirstUser at h
  rw [if_pos hfree] at h
  obtain ⟨⟨accountInsert, s₁⟩, hcredential, h⟩ := Statement.bind_ok h
  obtain ⟨s₂, horganization, h⟩ := Statement.bind_ok h
  obtain ⟨s₃, howner, h⟩ := Statement.bind_ok h
  cases h
  have hadmin : isAdmin ids.userId { s with users := [admin ids input] } = true := by
    simp [isAdmin, admin]
  obtain ⟨husers₁, haccount⟩ := insertCredential_ok hcredential
  obtain ⟨hchanges, hmem⟩ := haccount hadmin
  obtain ⟨husers₂, haccounts₂, -, hplatform⟩ := insertPlatformOrganization_ok horganization
  obtain ⟨husers₃, haccounts₃, -⟩ := insertOwner_ok howner
  have hadmin₂ : isAdmin ids.userId s₂ = true := by
    rw [isAdmin, husers₂, husers₁]
    exact hadmin
  refine ⟨by rw [hchanges], ?_, ?_, insertOwner_member howner hadmin₂ hplatform⟩
  · rw [husers₃, husers₂, husers₁]
  · rwa [haccounts₃, haccounts₂]

/-- Where there is one, the batch leaves the users alone and reports that it did. -/
theorem bootstrapAdmin_locked {changes : ℕ × ℕ} (hlocked : s.users ≠ [])
    (h : bootstrapAdmin ids input s = .ok (changes, s')) :
    changes.1 = 0 ∧ s'.users = s.users := by
  unfold bootstrapAdmin insertFirstUser at h
  rw [if_neg hlocked] at h
  obtain ⟨⟨accountInsert, s₁⟩, hcredential, h⟩ := Statement.bind_ok h
  obtain ⟨s₂, horganization, h⟩ := Statement.bind_ok h
  obtain ⟨s₃, howner, h⟩ := Statement.bind_ok h
  cases h
  refine ⟨rfl, ?_⟩
  rw [(insertOwner_ok howner).1, (insertPlatformOrganization_ok horganization).1,
    (insertCredential_ok hcredential).1]

end Batch

/-! ## Who creates the administrator -/

/-- The first user is free as long as there is none. -/
def firstUser : Claim Command Store where
  free s := s.users = []
  takes c s := s.users = [] ∧ ∃ ids input result,
    c = .bootstrapAdmin ids input ∧ bootstrapAdmin ids input s = .ok result
  kept c s := ∃ ids input, c = .bootstrapAdmin ids input ∧
    s.users.head?.map (·.id) = some ids.userId

def Request.isOnboarding : Request → Prop
  | .createAdminUser _ => True
  | .signUp _ => False

section Batch

variable {s : Store} {ids : BootstrapIds} {input : BootstrapAdminInput}

theorem exec_bootstrapAdmin {result : (ℕ × ℕ) × Store}
    (h : bootstrapAdmin ids input s = .ok result) :
    exec (Command.bootstrapAdmin ids input) s = result.2 := by
  simp only [exec, h]

/-- A batch that is refused changes nothing. -/
theorem exec_bootstrapAdmin_error {e : Error} (h : bootstrapAdmin ids input s = .error e) :
    exec (Command.bootstrapAdmin ids input) s = s := by
  simp only [exec, h]

theorem bootstrapped_error {e : Error} (h : bootstrapAdmin ids input s = .error e) :
    bootstrapped ids input s = .throw e := by
  simp only [bootstrapped, h]

theorem bootstrapped_free {result : (ℕ × ℕ) × Store} (hfree : s.users = [])
    (h : bootstrapAdmin ids input s = .ok result) :
    bootstrapped ids input s =
      .pure { id := ids.userId, email := input.email, role := "admin" } := by
  obtain ⟨changes, s'⟩ := result
  obtain ⟨rfl, -⟩ := bootstrapAdmin_free hfree h
  simp [bootstrapped, h]

theorem bootstrapped_locked {result : (ℕ × ℕ) × Store} (hlocked : s.users ≠ [])
    (h : bootstrapAdmin ids input s = .ok result) :
    bootstrapped ids input s = .throw locked := by
  obtain ⟨⟨userInsert, accountInsert⟩, s'⟩ := result
  obtain ⟨hchanges, -⟩ := bootstrapAdmin_locked hlocked h
  have hinsert : userInsert ≠ 1 := by
    simp only at hchanges
    omega
  simp [bootstrapped, h, hinsert]

end Batch

section Calls

variable [KeyDerivation]

/-- The batch that a call may execute. -/
def Request.uses (request : Request) (c : Command) : Prop :=
  ∃ input ids salt, request = .createAdminUser (.ok input) ∧
    c = .bootstrapAdmin ids (input.hashed salt)

/-- What a call returns is the administrator of its batch. -/
def Request.reports (_ : Request) (c : Command) (result : Option BootstrapUser) : Prop :=
  ∃ ids input, c = .bootstrapAdmin ids input ∧
    result = some { id := ids.userId, email := input.email, role := "admin" }

variable {ids : BootstrapIds} {input : BootstrapAdminInput} {request : Request}

theorem claims_bootstrapAdmin (huses : request.uses (.bootstrapAdmin ids input)) :
    (Program.call (.bootstrapAdmin ids input) fun s =>
      ((bootstrapped ids input s).bind ensured).bind fun user =>
        (.pure (some user) : OnboardingProgram (Option BootstrapUser))).Claims firstUser
          request.uses request.reports := by
  intro s
  beta_reduce
  cases hbatch : bootstrapAdmin ids input s with
  | error e =>
    rw [bootstrapped_error hbatch]
    refine Or.inr ⟨?_, ?_, trivial⟩
    · rintro ⟨-, ids', input', result, hc, hok⟩
      cases hc
      rw [hbatch] at hok
      cases hok
    · intro hfree
      rwa [exec_bootstrapAdmin_error hbatch]
  | ok result =>
    by_cases hfree : s.users = []
    · rw [bootstrapped_free hfree hbatch]
      refine Or.inl ⟨⟨hfree, ids, input, _, rfl, hbatch⟩, huses, ?_⟩
      intro reply
      beta_reduce
      cases reply.ensured with
      | error e => trivial
      | ok _ => exact ⟨ids, input, rfl, rfl⟩
    · rw [bootstrapped_locked hfree hbatch]
      exact Or.inr ⟨fun htakes => hfree htakes.1, fun h => absurd h hfree, trivial⟩

theorem claims_createAdminUser (body : Except Error OnboardingAdminRequest) :
    (system.program (.createAdminUser body)).Claims firstUser
      (Request.createAdminUser body).uses (Request.createAdminUser body).reports := by
  intro s
  refine Or.inr ⟨?_, fun hfree => hfree, ?_⟩
  · rintro ⟨-, _, _, _, hc, -⟩
    cases hc
  · by_cases hfree : s.users = []
    · cases body with
      | error e => simp [hfree, Program.Claims]
      | ok request =>
        simp only [hfree, ne_eq, not_true_eq_false, if_false]
        intro salt userId accountId memberId platformOrganizationId
        exact claims_bootstrapAdmin ⟨request, _, salt.salt, rfl, rfl⟩
    · simp [hfree, Program.Claims]

theorem spares_signUp (row : User) : (system.program (.signUp row)).Spares firstUser := by
  intro s
  refine ⟨?_, ?_⟩
  · rintro ⟨-, _, _, _, hc, -⟩
    cases hc
  · intro hfree
    have husers : s.users = [] := hfree
    refine ⟨hfree, ?_⟩
    simp only [husers, if_true]
    trivial

omit [KeyDerivation] in
theorem head_append {users : List User} {row : User} (h : users ≠ []) :
    (users ++ [row]).head?.map (·.id) = users.head?.map (·.id) := by
  cases users with
  | nil => exact absurd rfl h
  | cons user users => rfl

omit [KeyDerivation] in
/-- A command leaves the users as they are, or adds one, as long as there are some. -/
theorem exec_users {s : Store} (h : s.users ≠ []) (c : Command) :
    (exec c s).users = s.users ∨ ∃ row, (exec c s).users = s.users ++ [row] := by
  cases c with
  | hasUsers => exact Or.inl rfl
  | bootstrapAdmin ids input =>
    cases hbatch : bootstrapAdmin ids input s with
    | error e => exact Or.inl (congrArg Store.users (exec_bootstrapAdmin_error hbatch))
    | ok result =>
      rw [exec_bootstrapAdmin hbatch]
      exact Or.inl (bootstrapAdmin_locked h hbatch).2
  | insertUser row =>
    simp only [exec]
    split_ifs
    · exact Or.inl rfl
    · exact Or.inr ⟨row, rfl⟩

theorem claimable_firstUser :
    Pool.Claimable firstUser Request.isOnboarding Request.uses Request.reports system where
  program request hwants := by
    cases request with
    | createAdminUser body => exact claims_createAdminUser body
    | signUp row => exact hwants.elim
  spares request hwants := by
    cases request with
    | createAdminUser body => exact absurd trivial hwants
    | signUp row => exact spares_signUp row
  takes c s h := h.1
  taken c s h := by
    obtain ⟨hfree, ids, input, ⟨changes, s'⟩, rfl, hbatch⟩ := h
    have husers := (bootstrapAdmin_free hfree hbatch).2.users
    rw [exec_bootstrapAdmin hbatch]
    refine ⟨?_, ids, input, rfl, ?_⟩
    · intro hnone
      rw [show s'.users = [] from hnone] at husers
      cases husers
    · rw [husers]
      rfl
  exec c s h := by
    rcases exec_users h c with hsame | ⟨row, hmore⟩
    · refine ⟨fun hnone => h (hsame.symm.trans hnone), ?_⟩
      rintro taker ⟨ids, input, rfl, hhead⟩
      exact ⟨ids, input, rfl, hsame ▸ hhead⟩
    · refine ⟨?_, ?_⟩
      · intro hnone
        have hlength := congrArg List.length (hmore.symm.trans hnone)
        simp at hlength
      · rintro taker ⟨ids, input, rfl, hhead⟩
        refine ⟨ids, input, rfl, ?_⟩
        rwa [hmore, head_append h]
  environment event s := by
    refine ⟨?_, ?_⟩
    · intro hfree
      have husers : s.users = [] := hfree
      simp [firstUser, system, husers]
    · intro hlocked
      refine ⟨?_, ?_⟩
      · intro hnone
        exact hlocked (List.map_eq_nil_iff.mp hnone)
      · rintro taker ⟨ids, input, rfl, hhead⟩
        refine ⟨ids, input, rfl, ?_⟩
        have hmap : ((system.environment event s).users.head?.map (·.id)) =
            s.users.head?.map (·.id) := by
          simp only [system, List.head?_map, Option.map_map]
          rfl
        exact hmap.trans hhead

end Calls

/-! ## Runs -/

section Runs

variable [KeyDerivation]

abbrev Schedule := List (Action Reply Request Event)

/-- The installation after a schedule. -/
def after (s : Store) (schedule : Schedule) :
    Pool Command Store Reply Error (Option BootstrapUser) Request :=
  (Pool.idle s).run system schedule

/-- The onboarding call in place `i` has returned the user. -/
def Returned (s : Store) (schedule : Schedule) (i : ℕ) (user : BootstrapUser) : Prop :=
  ∃ body p, (after s schedule).procs[i]? = some (.createAdminUser body, p) ∧
    p.result? = some (.ok (some user))

variable {s : Store} {schedule : Schedule}

theorem not_returned_of_waiting {i : ℕ} {user : BootstrapUser}
    (h : ∀ entry, (after s schedule).procs[i]? = some entry →
      Pool.Waiting firstUser Request.isOnboarding Request.uses Request.reports entry) :
    ¬ Returned s schedule i user := by
  rintro ⟨body, p, hget, hresult⟩
  exact (h _ hget).not_returned trivial _ hresult

/-- Where there were users, no onboarding call returns. -/
theorem none_returned_of_users (h : s.users ≠ []) (i : ℕ) (user : BootstrapUser) :
    ¬ Returned s schedule i user := by
  have hgone : Pool.Gone firstUser Request.isOnboarding Request.uses Request.reports
      (after s schedule) := (Pool.gone_idle h).run claimable_firstUser schedule
  exact not_returned_of_waiting fun entry hentry =>
    hgone.waiting entry (List.mem_of_getElem? hentry)

/-- The call in place `k` has created the administrator. -/
structure Created (s : Store) (schedule : Schedule) (k : ℕ) (request : OnboardingAdminRequest)
    (ids : BootstrapIds) (salt : List UInt8) : Prop where
  call : ((after s schedule).procs[k]?.map (·.1)) = some (.createAdminUser (.ok request))
  /-- The batch executes where there is no user, and does what it should. -/
  batch : ∃ t, (Command.bootstrapAdmin ids (request.hashed salt), t) ∈
      (Pool.idle s).commands system schedule ∧ t.users = [] ∧
    Bootstrapped ids (request.hashed salt)
      (exec (Command.bootstrapAdmin ids (request.hashed salt)) t)
  first : (after s schedule).state.users.head?.map (·.id) = some ids.userId
  returned : ∀ i user, Returned s schedule i user →
    i = k ∧ user = { id := ids.userId, email := request.email, role := "admin" }

theorem created_of_holder {k : ℕ} {c : Command} {t : Store}
    (hmem : (c, t) ∈ (Pool.idle s).commands system schedule) (htakes : firstUser.takes c t)
    (h : Pool.Holder firstUser Request.isOnboarding Request.uses Request.reports k c
      (after s schedule)) : ∃ request ids salt, Created s schedule k request ids salt := by
  obtain ⟨⟨request, p⟩, hget, -, ⟨body, ids, salt, hrequest, rfl⟩, hreports⟩ := h.holder
  simp only at hrequest
  subst hrequest
  obtain ⟨hfree, ids', input, ⟨changes, t'⟩, hc, hbatch⟩ := htakes
  cases hc
  refine ⟨body, ids, salt, ?_, ⟨t, hmem, hfree, ?_⟩, ?_, ?_⟩
  · rw [hget]
    rfl
  · rw [exec_bootstrapAdmin hbatch]
    exact (bootstrapAdmin_free hfree hbatch).2
  · obtain ⟨_, _, hc, hhead⟩ := h.kept
    cases hc
    exact hhead
  · intro i user hreturned
    have hi : i = k := by
      by_contra hi
      exact not_returned_of_waiting (fun entry => h.others i entry hi) hreturned
    subst hi
    refine ⟨rfl, ?_⟩
    obtain ⟨_, q, hget', hresult⟩ := hreturned
    rw [hget] at hget'
    cases hget'
    cases p with
    | pure result =>
      cases hresult
      obtain ⟨_, _, hc, huser⟩ := hreports
      cases hc
      exact Option.some.inj huser
    | throw e => cases hresult
    | ask next => cases hresult
    | call c next => cases hresult

/-- What the runs of an installation without users come to. -/
theorem created_or_free (h : s.users = []) :
    ((after s schedule).state.users = [] ∧ ∀ i user, ¬ Returned s schedule i user) ∨
      ∃ k request ids salt, Created s schedule k request ids salt := by
  have hrun := (Pool.free_idle h).run claimable_firstUser schedule
  rcases hrun with hfree | ⟨k, c, t, hmem, htakes, hholder⟩
  · refine Or.inl ⟨hfree.free, fun i user => not_returned_of_waiting ?_⟩
    exact fun entry hentry => hfree.waiting entry (List.mem_of_getElem? hentry)
  · obtain ⟨request, ids, salt, hcreated⟩ := created_of_holder hmem htakes hholder
    exact Or.inr ⟨k, request, ids, salt, hcreated⟩

/-- One onboarding call returns at most, and none where there were users before. Where there were
none, there still are none and no call has returned, or a call has created the administrator, who
is the first user, has a credential that verifies the password of the call, and is a member of the
platform organization; and what is returned is this administrator. -/
theorem onboarded_once (s : Store) (schedule : Schedule) :
    (∀ i j user user', Returned s schedule i user → Returned s schedule j user' → i = j) ∧
      (s.users ≠ [] → ∀ i user, ¬ Returned s schedule i user) ∧
        (s.users = [] →
          ((after s schedule).state.users = [] ∧ ∀ i user, ¬ Returned s schedule i user) ∨
            ∃ k request ids salt, Created s schedule k request ids salt ∧
              verifyStoredPassword (request.hashed salt).passwordHash request.password =
                .ok true) := by
  refine ⟨?_, none_returned_of_users, ?_⟩
  · intro i j user user' hi hj
    by_cases h : s.users = []
    · rcases created_or_free h with ⟨-, hnone⟩ | ⟨k, request, ids, salt, hcreated⟩
      · exact absurd hi (hnone i user)
      · exact (hcreated.returned i user hi).1.trans (hcreated.returned j user' hj).1.symm
    · exact absurd hi (none_returned_of_users h i user)
  · intro h
    rcases created_or_free h with hfree | ⟨k, request, ids, salt, hcreated⟩
    · exact Or.inl hfree
    · refine Or.inr ⟨k, request, ids, salt, hcreated, ?_⟩
      exact (verify_hashPassword request.password request.password salt).trans (by simp)

end Runs

end Onboarding
end Realmroot
