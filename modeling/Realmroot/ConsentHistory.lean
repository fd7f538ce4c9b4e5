import Realmroot.Library.Promises
import Realmroot.OAuthContexts
import Realmroot.TokenSystem

/-!
# The history of consents

Consents, policy authorizations, withdrawals and replacements of scope registries run in any
interleaving, while Applications and everything else are configured at will. What a consent
says is compared with what the user has agreed to since the consent was last withdrawn.
-/

namespace Realmroot

open AtomicProgram Program Pool

/-! ## The system -/

inductive ConsentRequest where
  | createConsent (input : CreateConsentRequest) (userId : String)
  /-- The scopes of an access token: the policy authorization is recorded on the way. -/
  | issue (input : OAuthTokenInput)
  | revokeConsent (consentId userId : String)
  | revokeAuthorization (authorizationId : String)
  | replaceDiscovery (id : String) (discovery : ResourceDiscovery)

inductive ConsentAnswer where
  | done
  | issued (authorized : AuthorizedScopes)
  deriving DecidableEq

inductive ConsentEvent where
  | elapse (milliseconds : ℕ)
  /-- Anything is changed but the consents: also whether an Application asks for them. -/
  | configure (db : Database)

abbrev ConsentSystem := System Command World Reply Error ConsentAnswer ConsentRequest ConsentEvent

/-- A request whose answer is of no interest. -/
def answering {α : Type} (p : Request α) : Request ConsentAnswer := p.bind fun _ => .pure .done

def consentSystem [Platform] : ConsentSystem where
  program
    | .createConsent input userId => answering (createConsent input userId)
    | .issue input => (authorizeAccessTokenScopes input).bind fun a => .pure (.issued a)
    | .revokeConsent consentId userId => answering (revokeConsent consentId userId)
    | .revokeAuthorization authorizationId =>
      answering (putApplicationAuthorizationRevocation authorizationId)
    | .replaceDiscovery id discovery => answering (replaceResourceDiscovery id discovery)
  environment
    | .elapse milliseconds, w => { w with clock := w.clock + milliseconds }
    | .configure db, w =>
      { w with db := { db with applicationConsents := w.db.applicationConsents } }

/-! ## What the user has agreed to -/

/-- An active consent of the user for the key holds the scope. -/
def Database.Consented (db : Database) (key : ConsentKey) (scope : String) : Prop :=
  ∃ row ∈ db.applicationConsents, row.isActiveFor key = true ∧
    row.authorizationSource = .userConsent ∧ scope ∈ row.scopes

/-- What the user of a request agrees to. -/
def ConsentRequest.words : ConsentRequest → List String
  | .createConsent input _ => input.words
  | _ => []

/-- The user of the request consents for the key, whose Application is the one of the client
in a state that is considered. -/
def ConsentRequest.AsksFor (visited : World → Prop) (request : ConsentRequest)
    (key : ConsentKey) : Prop :=
  ∃ input userId, request = .createConsent input userId ∧ key.userId = userId ∧
    key.resourceServerId = truthy input.resourceServerId ∧
      ∃ w, visited w ∧ ∃ application ∈ w.db.findApplicationByClientId input.clientId,
        application.id = key.applicationId

abbrev ConsentEntry := ConsentRequest × Command × World

/-- The command stores the consent of the user who asks for the scope. -/
def Consents (visited : World → Prop) (key : ConsentKey) (scope : String)
    (entry : ConsentEntry) : Prop :=
  entry.1.AsksFor visited key ∧ scope ∈ entry.1.words ∧
    (exec entry.2.1 entry.2.2).db.Consented key scope

/-- The command leaves nothing active for the key, where there was something. -/
def Revokes (key : ConsentKey) (entry : ConsentEntry) : Prop :=
  (∃ row ∈ entry.2.2.db.applicationConsents, row.isActiveFor key = true) ∧
    ∀ row ∈ (exec entry.2.1 entry.2.2).db.applicationConsents, row.isActiveFor key = false

/-- The user consented to the scope after the last withdrawal for the key. -/
def ConsentedSince (visited : World → Prop) (history : List ConsentEntry) (key : ConsentKey)
    (scope : String) : Prop :=
  ∃ before entry after, history = before ++ entry :: after ∧
    Consents visited key scope entry ∧ ∀ later ∈ after, ¬ Revokes key later

/-! ## The condition -/

/-- The scopes that a batch sets for a consent, if it sets any. -/
def ResourceNarrowing.consentScopes (narrowing : ResourceNarrowing) (id : String) : List String :=
  match narrowing.consents.lookup id with
  | some (.scopes scopes) => scopes
  | _ => []

/-- The consents of users that are not revoked. -/
def Database.userConsents (db : Database) : List ApplicationConsent :=
  db.applicationConsents.filter fun row =>
    row.revokedAt.isNone && row.authorizationSource = .userConsent

/-- The scopes that a command writes to consents of users which are not revoked, apart from
the words to which the user of its request agrees. -/
def Command.carries (words : List String) : Command → World → List (ConsentKey × String)
  | .consent (.insert row), _ =>
    if row.authorizationSource = .userConsent then
      (row.scopes.filter fun scope => !words.contains scope).map fun scope => (row.key, scope)
    else []
  | .consent (.update id scopes _), w =>
    (w.db.applicationConsents.filter fun row => row.id = id && row.revokedAt.isNone).flatMap
      fun row => (scopes.filter fun scope => !words.contains scope).map fun scope =>
        (row.key, scope)
  | .consent (.updatePolicy id scopes _), w =>
    (w.db.userConsents.filter fun row => row.id = id).flatMap fun row =>
      scopes.map fun scope => (row.key, scope)
  | .access (.replaceResourceDiscovery _ _ narrowing _), w =>
    w.db.userConsents.flatMap fun row =>
      (narrowing.consentScopes row.id).map fun scope => (row.key, scope)
  | _, _ => []

/-- What a command writes without being asked for it is still in an active consent of the
user: a policy authorization adds nothing to the consent of a user, and nothing is written that
has been withdrawn since it was read. -/
def ConsentCurrent (request : ConsentRequest) (command : Command) (w : World) : Prop :=
  ∀ carried ∈ command.carries request.words w, w.db.Consented carried.1 carried.2

instance (db : Database) (key : ConsentKey) (scope : String) : Decidable (db.Consented key scope) :=
  inferInstanceAs (Decidable (∃ row ∈ db.applicationConsents, _))

instance (request : ConsentRequest) (command : Command) (w : World) :
    Decidable (ConsentCurrent request command w) :=
  inferInstanceAs (Decidable (∀ carried ∈ command.carries request.words w, _))

/-! ## Steps -/

/-- What each command does to a consent that is there. -/
def Command.changeConsent : Command → ApplicationConsent → ApplicationConsent
  | .consent (.update id scopes now), row =>
    if row.id = id then
      { row with
        scopes := scopes, authorizationSource := .userConsent, grantedAt := now
        expiresAt := none }
    else row
  | .consent (.updatePolicy id scopes now), row =>
    if row.id = id then { row with scopes := scopes, grantedAt := now, expiresAt := none }
    else row
  | .consent (.revokeGrant grant now), row =>
    if row.applicationId = grant.applicationId ∧ row.userId = grant.userId ∧
        row.revokedAt.isNone = true then
      { row with revokedAt := some now }
    else row
  | .access (.replaceResourceDiscovery _ _ narrowing now), row =>
    match narrowing.consents.lookup row.id with
    | some (.scopes scopes) => { row with scopes := scopes }
    | some .revoked => { row with revokedAt := some now }
    | none => row
  | _, row => row

/-- The commands of the system: those that touch no consent but through their own rows. -/
def ConsentRequest.Promises (visited : World → Prop) (request : ConsentRequest) :
    Command → World → Prop
  | .read, _ => True
  | .generateId, _ => True
  | .consent (.insert row), _ =>
    row.authorizationSource = .userConsent → request.AsksFor visited row.key
  | .consent (.update id _ _), w =>
    ∀ row ∈ w.db.applicationConsents, row.id = id → request.AsksFor visited row.key
  | .consent _, _ => True
  | .access (.replaceResourceDiscovery ..), _ => True
  | _, _ => False

section Steps

variable {visited : World → Prop} {request : ConsentRequest} {command : Command} {w : World}

theorem changeConsent_same (command : Command) (row : ApplicationConsent) :
    (command.changeConsent row).id = row.id ∧ (command.changeConsent row).key = row.key := by
  unfold Command.changeConsent
  split
  · split_ifs <;> exact ⟨rfl, rfl⟩
  · split_ifs <;> exact ⟨rfl, rfl⟩
  · split_ifs <;> exact ⟨rfl, rfl⟩
  · split <;> exact ⟨rfl, rfl⟩
  · exact ⟨rfl, rfl⟩

/-- A promised command changes each consent on its own, or inserts one under a new id. -/
theorem exec_consents (h : request.Promises visited command w) :
    (exec command w).db.applicationConsents =
        w.db.applicationConsents.map command.changeConsent ∨
      ∃ row, command = .consent (.insert row) ∧
        (∀ old ∈ w.db.applicationConsents, old.id ≠ row.id) ∧
        (exec command w).db.applicationConsents = w.db.applicationConsents ++ [row] := by
  have hsame : ∀ c : Command, c.changeConsent = id → (exec c w).db.applicationConsents =
      w.db.applicationConsents → (exec c w).db.applicationConsents =
        w.db.applicationConsents.map c.changeConsent := by
    intro c hid hc
    rw [hid, List.map_id, hc]
  cases command with
  | read => exact Or.inl (hsame _ rfl rfl)
  | generateId => exact Or.inl (hsame _ rfl rfl)
  | consent command =>
    cases command with
    | insert row =>
      have hexec : (exec (Command.consent (.insert row)) w).db =
          (Database.insertConsent row).after w.db := rfl
      rw [hexec]
      cases hok : Database.insertConsent row w.db with
      | error e =>
        rw [Statement.after_of_error hok]
        left
        change _ = w.db.applicationConsents.map id
        rw [List.map_id]
      | ok result =>
        obtain ⟨u, db⟩ := result
        rw [Statement.after_of_ok hok]
        unfold Database.insertConsent at hok
        split_ifs at hok with hid hkey
        cases hok
        exact Or.inr ⟨row, rfl, by simpa using hid, rfl⟩
    | update id scopes now =>
      left
      change Table.updateWhere _ _ w.db.applicationConsents = _
      simp only [Table.updateWhere, decide_eq_true_eq]
      rfl
    | updatePolicy id scopes now =>
      left
      change Table.updateWhere _ _ w.db.applicationConsents = _
      simp only [Table.updateWhere, decide_eq_true_eq]
      rfl
    | revokeGrant grant now =>
      left
      change Table.updateWhere _ _ w.db.applicationConsents = _
      simp only [Table.updateWhere, Bool.and_eq_true, decide_eq_true_eq, and_assoc]
      rfl
  | access command =>
    cases command with
    | replaceResourceDiscovery id discovery narrowing now => exact Or.inl rfl
    | _ => exact h.elim
  | _ => exact h.elim

/-- Rows are found again, under their ids and for their keys. -/
def ConsentsPersist (s t : World) : Prop :=
  ∀ row ∈ s.db.applicationConsents, ∃ later ∈ t.db.applicationConsents,
    later.id = row.id ∧ later.key = row.key

theorem consents_exec (h : request.Promises visited command w)
    (hkeyed : Table.Keyed (·.id) w.db.applicationConsents) :
    Table.Keyed (·.id) (exec command w).db.applicationConsents ∧
      ConsentsPersist w (exec command w) := by
  rcases exec_consents h with hmap | ⟨row, -, hnew, hinsert⟩
  · constructor
    · rw [hmap, Table.Keyed, List.map_map]
      have hids : ((fun row : ApplicationConsent => row.id) ∘ command.changeConsent) = (·.id) :=
        funext fun row => (changeConsent_same command row).1
      rw [hids]
      exact hkeyed
    · intro row hrow
      rw [hmap]
      exact ⟨_, List.mem_map_of_mem hrow, changeConsent_same command row⟩
  · constructor
    · rw [hinsert]
      exact hkeyed.append_singleton hnew
    · intro old hold
      rw [hinsert]
      exact ⟨old, List.mem_append_left _ hold, rfl, rfl⟩

/-- Where the condition holds, a scope of a consent that is there after a command was there
before it, or the command stores what the user asks for. -/
theorem consented_exec {key : ConsentKey} {scope : String}
    (h : request.Promises visited command w) (hcurrent : ConsentCurrent request command w)
    (hafter : (exec command w).db.Consented key scope) :
    w.db.Consented key scope ∨ Consents visited key scope (request, command, w) := by
  have hwords : request.AsksFor visited key →
      (scope ∉ request.words → w.db.Consented key scope) →
        w.db.Consented key scope ∨ Consents visited key scope (request, command, w) := by
    intro hasks hold
    by_cases hword : scope ∈ request.words
    · exact Or.inr ⟨hasks, hword, hafter⟩
    · exact Or.inl (hold hword)
  obtain ⟨row, hrow, hactive, hsource, hscope⟩ := hafter
  obtain ⟨hkey, hrevoked⟩ : row.key = key ∧ row.revokedAt = none := by
    simpa [ApplicationConsent.isActiveFor] using hactive
  have hkept : row ∈ w.db.applicationConsents →
      w.db.Consented key scope ∨ Consents visited key scope (request, command, w) :=
    fun hold => Or.inl ⟨row, hold, hactive, hsource, hscope⟩
  have hcarried := hcurrent (key, scope)
  rcases exec_consents h with hmap | ⟨new, rfl, -, hinsert⟩
  · rw [hmap] at hrow
    obtain ⟨old, hold, hchange⟩ := List.mem_map.mp hrow
    have holdkey : old.key = key := by
      rw [← hkey, ← hchange]
      exact (changeConsent_same command old).2.symm
    cases command with
    | read => exact hkept (hchange ▸ hold)
    | generateId => exact hkept (hchange ▸ hold)
    | consent command =>
      cases command with
      | insert row => exact hkept (hchange ▸ hold)
      | update id scopes now =>
        simp only [Command.changeConsent] at hchange
        split_ifs at hchange with hid
        · subst hchange
          apply hwords (holdkey ▸ h old hold hid)
          intro hword
          apply hcarried
          simp only [Command.carries, List.mem_flatMap, List.mem_filter, List.mem_map]
          exact ⟨old, ⟨hold, by simpa [hid] using hrevoked⟩, scope, ⟨hscope, by simpa using hword⟩,
            by rw [holdkey]⟩
        · exact hkept (hchange ▸ hold)
      | updatePolicy id scopes now =>
        simp only [Command.changeConsent] at hchange
        split_ifs at hchange with hid
        · subst hchange
          left
          apply hcarried
          simp only [Command.carries, Database.userConsents, List.mem_flatMap, List.mem_filter,
            List.mem_map]
          exact ⟨old, ⟨⟨hold, by simpa using ⟨hrevoked, hsource⟩⟩, by simpa using hid⟩, scope,
            hscope, by rw [holdkey]⟩
        · exact hkept (hchange ▸ hold)
      | revokeGrant grant now =>
        simp only [Command.changeConsent] at hchange
        split_ifs at hchange with hselected
        · subst hchange
          cases hrevoked
        · exact hkept (hchange ▸ hold)
    | access command =>
      cases command with
      | replaceResourceDiscovery id discovery narrowing now =>
        simp only [Command.changeConsent] at hchange
        split at hchange
        · rename_i scopes hlookup
          subst hchange
          left
          apply hcarried
          simp only [Command.carries, Database.userConsents, List.mem_flatMap, List.mem_filter,
            List.mem_map]
          refine ⟨old, ⟨hold, by simpa using ⟨hrevoked, hsource⟩⟩, scope, ?_, by rw [holdkey]⟩
          rw [ResourceNarrowing.consentScopes, hlookup]
          exact hscope
        · subst hchange
          cases hrevoked
        · exact hkept (hchange ▸ hold)
      | _ => exact h.elim
    | _ => exact h.elim
  · rw [hinsert] at hrow
    rcases List.mem_append.mp hrow with hold | hnew
    · exact hkept hold
    · rw [List.mem_singleton] at hnew
      subst hnew
      apply hwords (hkey ▸ h hsource)
      intro hword
      apply hcarried
      simp only [Command.carries, if_pos hsource, List.mem_map, List.mem_filter]
      exact ⟨scope, ⟨hscope, by simpa using hword⟩, by rw [hkey]⟩

/-- A command after which something is active for the key has not revoked it. -/
theorem not_revokes {key : ConsentKey} {scope : String}
    (h : (exec command w).db.Consented key scope) : ¬ Revokes key (request, command, w) := by
  intro hrevokes
  obtain ⟨row, hrow, hactive, -⟩ := h
  have hinactive := hrevokes.2 row hrow
  rw [hactive] at hinactive
  cases hinactive

/-- One command keeps what the history says of consents. -/
theorem consentedSince_exec {history : List ConsentEntry} {key : ConsentKey} {scope : String}
    (h : request.Promises visited command w) (hcurrent : ConsentCurrent request command w)
    (hhistory : w.db.Consented key scope → ConsentedSince visited history key scope)
    (hafter : (exec command w).db.Consented key scope) :
    ConsentedSince visited (history ++ [(request, command, w)]) key scope := by
  rcases consented_exec h hcurrent hafter with hbefore | hconsents
  · obtain ⟨before, entry, after, rfl, hentry, hlater⟩ := hhistory hbefore
    refine ⟨before, entry, after ++ [(request, command, w)], by simp, hentry, ?_⟩
    intro later hmem
    rcases List.mem_append.mp hmem with hold | hnew
    · exact hlater later hold
    · rw [List.mem_singleton.mp hnew]
      exact not_revokes hafter
  · refine ⟨history, _, [], rfl, hconsents, ?_⟩
    intro later hmem
    cases hmem

end Steps

/-! ## The requests -/

theorem ConsentsPersist.refl (s : World) : ConsentsPersist s s :=
  fun row hrow => ⟨row, hrow, rfl, rfl⟩

theorem ConsentsPersist.trans {s t u : World} (h : ConsentsPersist s t)
    (h' : ConsentsPersist t u) : ConsentsPersist s u := by
  intro row hrow
  obtain ⟨middle, hmiddle, hid, hkey⟩ := h row hrow
  obtain ⟨later, hlater, hid', hkey'⟩ := h' middle hmiddle
  exact ⟨later, hlater, hid'.trans hid, hkey'.trans hkey⟩

/-- The key is for the user, the Application and the resource of the token, as they are found
in states that are considered. -/
structure TokenKey (visited : World → Prop) (input : OAuthTokenInput) (user : OAuthUser)
    (key : ConsentKey) : Prop where
  user : key.userId = user.id
  application : ∃ w, visited w ∧ ∃ application ∈ w.db.applicationOf input,
    application.id = key.applicationId
  resource : ∃ w, visited w ∧ ∃ resource ∈ (truthy input.resource).bind
    w.db.findResourceByResourceUrl, key.resourceServerId = some resource.id

/-- Where the token is for a user and the Application asked for consent, each scope of a
resource is in a consent that was active. -/
def TokenConsented (visited : World → Prop) (input : OAuthTokenInput)
    (authorized : AuthorizedScopes) : Prop :=
  ∀ user ∈ input.user, authorized.consentRequired = true → ∀ scope ∈ authorized.scopes,
    isOidcScope scope = false →
      ∃ key, TokenKey visited input user key ∧ ∃ w, visited w ∧ w.db.Consented key scope

/-- The promises of the requests, where the states that they read are considered. -/
def consentPromises (visited : World → Prop) :
    Promises Command World Reply Error ConsentAnswer ConsentRequest where
  inv w := Table.Keyed (·.id) w.db.applicationConsents
  moves := ConsentsPersist
  cond request c w := visited w ∧ ConsentCurrent request c w
  promise request := request.Promises visited
  post request r _ := ∀ input authorized, request = .issue input → r = .ok (.issued authorized) →
    TokenConsented visited input authorized

/-- The commands that are promised wherever they execute. -/
def Command.Unbound : Command → Prop
  | .read => True
  | .generateId => True
  | .consent (.insert row) => row.authorizationSource = .platformPolicy
  | .consent (.update ..) => False
  | .consent _ => True
  | .access (.replaceResourceDiscovery ..) => True
  | _ => False

section Requests

variable {visited : World → Prop} {request : ConsentRequest} {w : World} {α β : Type}
  {post : Except Error β → World → Prop}

theorem Command.Unbound.promised {command : Command} (h : command.Unbound) :
    request.Promises visited command w := by
  cases command with
  | consent command =>
    cases command with
    | insert row =>
      intro hsource
      change row.authorizationSource = _ at h
      rw [hsource] at h
      cases h
    | update id scopes now => exact h.elim
    | _ => trivial
  | access command =>
    cases command with
    | replaceResourceDiscovery id discovery narrowing now => trivial
    | _ => exact h.elim
  | read => trivial
  | generateId => trivial
  | _ => exact h.elim

/-- A request of such commands keeps every contract of the system. -/
theorem unbound_meets {p : Request α} {Q : α → Prop} (hp : p.Uses Command.Unbound)
    (hQ : p.Returns Q) (w : World) :
    p.Meets ((consentPromises visited).contract request) (fun r _ => ∀ a, r = .ok a → Q a) w := by
  induction p generalizing w with
  | pure a =>
    rintro _ ⟨rfl⟩
    exact hQ
  | throw e =>
    intro a ha
    cases ha
  | call c next ih =>
    intro t _ _
    exact ⟨hp.1.promised, ih t (hp.2 t) (hQ t) _⟩
  | ask next ih =>
    intro r t _ _
    exact ih r (hp r) (hQ r) t

/-- Such a request at the head of a longer one. -/
theorem unbound_bind {p : Request α} {next : α → Request β} {Q : α → Prop}
    (hp : p.Uses Command.Unbound) (hQ : p.Returns Q)
    (hok : ∀ a t, Q a → (next a).Meets ((consentPromises visited).contract request) post t)
    (herror : ∀ e t, post (.error e) t) :
    (p >>= next).Meets ((consentPromises visited).contract request) post w := by
  rw [Program.bind_eq, meets_bind]
  refine (unbound_meets hp hQ w).mono ?_
  rintro (e | a) t h
  · exact herror e t
  · exact hok a t (h a rfl)

/-! ### Consenting -/

theorem persistedConsent_reads (key : ConsentKey) (what : String) :
    (persistedConsent key what).Uses Command.Unbound := by
  unfold persistedConsent
  apply uses_bind (uses_query.mpr trivial)
  intro row
  exact uses_bind uses_orThrow fun _ => trivial

/-- What is written is a consent for the key for which the user asks. -/
theorem writeConsent_meets [Platform] {key : ConsentKey} (hasks : request.AsksFor visited key)
    (scopes : List String) (now : Time) {existing : Option ApplicationConsent}
    (hexisting : ∀ row ∈ existing, row ∈ w.db.applicationConsents ∧ row.key = key) :
    (writeConsent key scopes now existing).Meets ((consentPromises visited).contract request)
      (fun _ _ => True) w := by
  cases existing with
  | none =>
    refine meets_generateId fun v _ _ => ⟨by trivial, ?_⟩
    refine meets_perform_last fun x _ _ => ⟨fun _ => hasks, ?_⟩
    split <;> trivial
  | some row =>
    obtain ⟨hrow, hkey⟩ := hexisting row rfl
    unfold writeConsent executeConsent
    refine meets_perform_last fun x hpersist hallowed => ⟨?_, ?_⟩
    · intro found hfound hid
      obtain ⟨later, hlater, hlaterid, hlaterkey⟩ := hpersist row hrow
      have hsame : found = later := hallowed.1.eq_of_key hfound hlater (hid.trans hlaterid.symm)
      rw [hsame, hlaterkey, hkey]
      exact hasks
    · split <;> trivial

theorem activeConsent_some {db : Database} {key : ConsentKey} {row : ApplicationConsent}
    (h : db.activeConsent key = some row) :
    row ∈ db.applicationConsents ∧ row.isActiveFor key = true :=
  ⟨List.mem_of_find?_eq_some h, List.find?_some h⟩

theorem key_of_isActiveFor {key : ConsentKey} {row : ApplicationConsent}
    (h : row.isActiveFor key = true) : row.key = key := by
  simp only [ApplicationConsent.isActiveFor, Bool.and_eq_true, decide_eq_true_eq] at h
  exact h.1

theorem storeConsent_meets [Platform] {key : ConsentKey} (hasks : request.AsksFor visited key)
    (scopes : List String) (w : World) :
    (storeConsent key scopes).Meets ((consentPromises visited).contract request)
      (fun _ _ => True) w := by
  unfold storeConsent
  refine meets_currentTime fun t _ _ => ⟨by trivial, ?_⟩
  refine meets_query fun u _ _ => ⟨by trivial, ?_⟩
  rw [Program.bind_eq, meets_bind]
  have hexisting : ∀ row ∈ u.db.activeConsent key,
      row ∈ u.db.applicationConsents ∧ row.key = key := by
    intro row hrow
    obtain ⟨hmem, hactive⟩ := activeConsent_some hrow
    exact ⟨hmem, key_of_isActiveFor hactive⟩
  refine (writeConsent_meets hasks scopes t.clock hexisting).mono ?_
  rintro (e | a) v _
  · trivial
  · exact (unbound_meets (persistedConsent_reads key "consent") (returns_true _) v).mono
      fun _ _ _ => trivial

theorem requestedResource_reads (resourceServerId : Option String) (userId : String) :
    (requestedResource resourceServerId userId).Uses Command.Unbound := by
  unfold requestedResource
  split
  · trivial
  · refine uses_bind ?_ fun _ => trivial
    unfold requireResourceVisibleToUser
    apply uses_bind (uses_query.mpr trivial)
    intro found
    apply uses_bind uses_orThrow
    intro resource
    split_ifs
    · trivial
    · apply uses_bind (uses_query.mpr trivial)
      intro membership
      exact uses_bind uses_orThrow fun _ => trivial

/-- The resource is the one that the request names. -/
theorem requestedResource_returns (resourceServerId : Option String) (userId : String) :
    (requestedResource resourceServerId userId).Returns fun resource =>
      resource.map (·.id) = truthy resourceServerId := by
  unfold requestedResource
  split
  · rename_i hnone
    exact hnone.symm
  · rename_i resourceId hsome
    rw [hsome]
    have hfound : (requireResourceVisibleToUser resourceId userId).Returns fun resource =>
        resource.id = resourceId := by
      have hread : (query (·.findResource resourceId)).Returns
          fun found => ∀ resource ∈ found, resource.id = resourceId := by
        apply returns_query
        intro db resource hresource
        have hrow := List.find?_some hresource
        simp only [Bool.and_eq_true, decide_eq_true_eq] at hrow
        exact hrow.1
      refine hread.bind fun found hfound => ?_
      refine (returns_orThrow fun resource hresource => hfound resource
        (Option.filter_eq_some_iff.mp hresource).1).bind fun resource hid => ?_
      split_ifs
      · exact hid
      · refine (returns_true _).bind fun _ _ => (returns_true _).bind fun _ _ => hid
    refine hfound.bind ?_
    intro resource hid
    exact congrArg some hid

theorem createConsent_meets [Platform] (input : CreateConsentRequest) (userId : String)
    (w : World) :
    (createConsent input userId).Meets
      ((consentPromises visited).contract (.createConsent input userId)) (fun _ _ => True) w := by
  unfold createConsent
  refine meets_query fun t _ hallowed => ⟨by trivial, ?_⟩
  refine meets_orThrow (fun _ => trivial) fun application happlication => ?_
  have happlication := (Option.filter_eq_some_iff.mp happlication).1
  refine unbound_bind (requestedResource_reads _ _) (requestedResource_returns _ _)
    (fun resource u hresource => ?_) fun _ _ => trivial
  dsimp only
  generalize normalizeRequestedScopes (joinWithSpace input.scopes) _ = normalized
  refine meets_ofResult (fun _ _ => trivial) fun requested _ => ?_
  refine meets_query fun v _ _ => ⟨by trivial, ?_⟩
  rw [Program.bind_eq, meets_bind]
  have hasks : ConsentRequest.AsksFor visited (.createConsent input userId)
      { applicationId := application.id, userId := userId
        resourceServerId := resource.map (·.id) } :=
    ⟨input, userId, rfl, rfl, hresource, t, hallowed.2.1, application, happlication, rfl⟩
  refine (storeConsent_meets hasks _ v).mono ?_
  rintro (e | a) x _ <;> trivial

/-! ### Issuing -/

theorem requireContext_reads {P : Command → Prop} (hP : P .read) (organizationId userId : String)
    (refusal : Error) : (requireContext organizationId userId refusal).Uses P := by
  unfold requireContext
  apply uses_bind (uses_query.mpr hP)
  intro organization
  apply uses_bind (uses_query.mpr hP)
  intro membership
  exact uses_bind uses_throwIf fun _ => trivial

theorem resolveOAuthOrganizationId_reads {P : Command → Prop} (hP : P .read)
    (input : OAuthTokenInput) (application : Option ApplicationAggregate) (code : String) :
    (resolveOAuthOrganizationId input application code).Uses P := by
  unfold resolveOAuthOrganizationId
  cases input.user with
  | none => trivial
  | some user =>
    dsimp only
    unfold userContext
    split_ifs
    · trivial
    · trivial
    · split
      · exact uses_bind uses_throwIf fun _ =>
          uses_bind (requireContext_reads hP ..) fun _ => trivial
      · unfold defaultContext
        split
        · exact uses_bind (requireContext_reads hP ..) fun _ => trivial
        · unfold resourceContext
          apply uses_bind (uses_queryWhen hP)
          intro found
          split
          · trivial
          · exact uses_bind (requireContext_reads hP ..) fun _ => trivial

theorem recordPolicy_uses [Platform] (application : ApplicationAggregate) (userId : String)
    (resourceServerId : Option String) (scopes : List String) :
    (recordPolicy application userId resourceServerId scopes).Uses Command.Unbound := by
  unfold recordPolicy
  split_ifs
  · trivial
  · refine uses_bind ?_ fun _ => trivial
    unfold recordPolicyAuthorization
    apply uses_bind (uses_currentTime.mpr trivial)
    intro now
    apply uses_bind (uses_query.mpr trivial)
    intro existing
    refine uses_bind ?_ fun _ => persistedConsent_reads _ _
    cases existing with
    | none =>
      apply uses_bind (uses_generateId.mpr trivial)
      intro id
      exact uses_perform.mpr rfl
    | some existing =>
      unfold writePolicyAuthorization executeConsent
      exact uses_perform.mpr (by trivial)

/-- The postcondition of the request for a token. -/
def issued (visited : World → Prop) (input : OAuthTokenInput) :
    Except Error AuthorizedScopes → World → Prop
  | .ok authorized, _ => TokenConsented visited input authorized
  | .error _, _ => True

/-- A token with no scope of a resource. -/
theorem tokenConsented_oidc {input : OAuthTokenInput} {authorized : AuthorizedScopes}
    (h : ∀ scope ∈ authorized.scopes, isOidcScope scope = true) :
    TokenConsented visited input authorized := by
  intro _ _ _ scope hscope hresource
  rw [h scope hscope] at hresource
  cases hresource

/-- Consents are read in a state that is considered. -/
theorem consentedScopes_meets (application : ApplicationAggregate) (userId resourceId : String)
    (targetScopes : List String) (w : World) :
    (consentedScopes application userId resourceId targetScopes).Meets
      ((consentPromises visited).contract request)
      (fun r _ => ∀ consented, r = .ok consented → application.consentRequired = true →
        ∀ scope ∈ consented, ∃ t, visited t ∧ t.db.Consented
          { applicationId := application.id, userId := userId
            resourceServerId := some resourceId } scope) w := by
  unfold consentedScopes
  split_ifs with hrequired
  · refine meets_query fun t _ hallowed => ⟨by trivial, ?_⟩
    rintro _ ⟨rfl⟩ _ scope hscope
    cases hconsent : t.db.findConsent
        { applicationId := application.id, userId := userId
          resourceServerId := some resourceId } with
    | none => simp [hconsent] at hscope
    | some consent =>
      refine ⟨t, hallowed.2.1, consent, ?_⟩
      have hmem := List.mem_of_mem_head? hconsent
      rw [List.mem_insertionSort, List.mem_filter] at hmem
      simp only [Bool.and_eq_true, decide_eq_true_eq] at hmem
      exact ⟨hmem.1, hmem.2.1, hmem.2.2, by simpa [hconsent] using hscope⟩
  · rintro _ _ hconsent
    exact absurd hconsent hrequired

theorem userTokenScopes_meets [Platform] {input : OAuthTokenInput} {user : OAuthUser}
    (huser : input.user = some user) {application : ApplicationAggregate} {resource : ApiResource}
    (hkey : TokenKey visited input user
      { applicationId := application.id, userId := user.id
        resourceServerId := some resource.id })
    (organizationId : Option String) (w : World) :
    (userTokenScopes input application resource organizationId user.id).Meets
      ((consentPromises visited).contract request) (issued visited input) w := by
  unfold userTokenScopes
  refine meets_currentTime fun t _ _ => ⟨by trivial, ?_⟩
  refine unbound_bind (userEffectiveResourceScopes_reads trivial ..) (returns_true _)
    (fun effective u _ => ?_) fun _ _ => trivial
  rw [Program.bind_eq, meets_bind]
  refine (consentedScopes_meets application user.id resource.id _ u).mono ?_
  rintro (e | consented) v hconsented
  · trivial
  refine unbound_bind (recordPolicy_uses ..) (returns_true _) (fun _ _ _ => ?_) fun _ _ => trivial
  intro found hfound hrequired scope hscope hresource
  rw [huser, Option.mem_some_iff] at hfound
  subst hfound
  rcases List.mem_append.mp hscope with hoidc | htarget
  · have hoidc : isOidcScope scope = true := (List.mem_filter.mp hoidc).2
    rw [hoidc] at hresource
    cases hresource
  · have hboth := (List.mem_filter.mp htarget).2
    simp only [Bool.and_eq_true, List.contains_iff_mem] at hboth
    exact ⟨_, hkey, hconsented consented rfl hrequired scope hboth.2⟩

theorem principalTokenScopes_meets [Platform] {input : OAuthTokenInput}
    {application : ApplicationAggregate} {resource : ApiResource}
    (hkey : ∀ user, TokenKey visited input user
      { applicationId := application.id, userId := user.id
        resourceServerId := some resource.id })
    (organizationId : Option String) (w : World) :
    (principalTokenScopes input application resource organizationId).Meets
      ((consentPromises visited).contract request) (issued visited input) w := by
  unfold principalTokenScopes
  cases huser : input.user with
  | none =>
    refine unbound_bind (applicationEffectiveResourceScopes_reads trivial ..) (returns_true _)
      (fun _ _ _ => ?_) fun _ _ => trivial
    intro user hsome
    rw [huser] at hsome
    cases hsome
  | some user => exact userTokenScopes_meets huser (hkey user) organizationId w

theorem targetedScopes_meets [Platform] {input : OAuthTokenInput} {url : String}
    (hurl : truthy input.resource = some url) {application : ApplicationAggregate}
    (happlication : ∃ w, visited w ∧ application ∈ w.db.applicationOf input) (w : World) :
    (targetedScopes input application url).Meets ((consentPromises visited).contract request)
      (issued visited input) w := by
  unfold targetedScopes
  refine meets_query fun t _ hallowed => ⟨by trivial, ?_⟩
  refine meets_orThrow (fun _ => trivial) fun resource hresource => ?_
  have hresource := (Option.filter_eq_some_iff.mp hresource).1
  refine unbound_bind (resolveOAuthOrganizationId_reads trivial ..) (returns_true _)
    (fun organizationId u _ => ?_) fun _ _ => trivial
  refine meets_throwIf (fun _ => trivial) fun _ => ?_
  refine meets_throwIf (fun _ => trivial) fun _ => ?_
  apply principalTokenScopes_meets
  intro user
  obtain ⟨v, hv, hmem⟩ := happlication
  constructor
  · rfl
  · exact ⟨v, hv, application, hmem, rfl⟩
  · refine ⟨t, hallowed.2.1, resource, ?_, rfl⟩
    rw [hurl]
    exact hresource

theorem untargetedScopes_meets [Platform] (input : OAuthTokenInput)
    (application : ApplicationAggregate) (w : World) :
    (untargetedScopes input application).Meets ((consentPromises visited).contract request)
      (issued visited input) w := by
  unfold untargetedScopes
  refine meets_throwIf (fun _ => trivial) fun _ => ?_
  cases input.user with
  | none =>
    apply tokenConsented_oidc
    intro scope hscope
    cases hscope
  | some user =>
    refine unbound_bind (recordPolicy_uses ..) (returns_true _) (fun _ _ _ => ?_)
      fun _ _ => trivial
    apply tokenConsented_oidc
    intro scope hscope
    exact (List.mem_filter.mp hscope).2

theorem authorizeAccessTokenScopes_meets [Platform] (input : OAuthTokenInput) (w : World) :
    (authorizeAccessTokenScopes input).Meets ((consentPromises visited).contract request)
      (issued visited input) w := by
  have hnext : ∀ (found : Option ApplicationAggregate) (t : World),
      (∀ application ∈ found, ∃ w, visited w ∧ application ∈ w.db.applicationOf input) →
      (scopesOfFound input found).Meets ((consentPromises visited).contract request)
        (issued visited input) t := by
    intro found t hfound
    unfold scopesOfFound
    cases hactive : found.filter fun application => !application.disabled with
    | none =>
      apply tokenConsented_oidc
      intro scope hscope
      cases hscope
    | some application =>
      have hmem := (Option.filter_eq_some_iff.mp hactive).1
      dsimp only
      unfold applicationScopes
      refine unbound_bind (requireApplicationUserAccess_reads trivial ..) (returns_true _)
        (fun _ u _ => ?_) fun _ _ => trivial
      refine meets_throwIf (fun _ => trivial) fun _ => ?_
      cases hurl : truthy input.resource with
      | none => exact untargetedScopes_meets input application u
      | some url => exact targetedScopes_meets hurl (hfound application hmem) u
  unfold authorizeAccessTokenScopes OAuthTokenInput.findApplication
  cases hid : input.applicationId with
  | none =>
    apply hnext none w
    rintro _ ⟨⟩
  | some id =>
    unfold queryWhen
    refine meets_query fun t _ hallowed => ⟨by trivial, ?_⟩
    apply hnext
    intro application happlication
    refine ⟨t, hallowed.2.1, ?_⟩
    rw [Database.applicationOf, hid]
    exact happlication

/-! ### Withdrawing -/

theorem revokeGrant_uses (selector : GrantSelector) :
    (revokeGrant selector).Uses Command.Unbound := by
  unfold revokeGrant
  apply uses_bind (uses_query.mpr trivial)
  intro grant
  cases grant with
  | none => trivial
  | some grant =>
    apply uses_bind (uses_currentTime.mpr trivial)
    intro now
    refine uses_bind ?_ fun _ => trivial
    unfold executeConsent
    exact uses_perform.mpr (by trivial)

theorem putApplicationAuthorizationRevocation_uses (authorizationId : String) :
    (putApplicationAuthorizationRevocation authorizationId).Uses Command.Unbound := by
  have hget : (getApplicationAuthorization authorizationId).Uses Command.Unbound :=
    uses_bind (uses_query.mpr trivial) fun _ => uses_orThrow
  unfold putApplicationAuthorizationRevocation
  apply uses_bind hget
  intro authorization
  split
  · trivial
  · unfold revokeApplicationAuthorization
    apply uses_bind (revokeGrant_uses _)
    intro revoked
    apply uses_bind uses_throwIf
    intro _
    exact uses_bind hget fun _ => uses_orThrow

theorem replaceResourceDiscovery_uses (id : String) (discovery : ResourceDiscovery) :
    (replaceResourceDiscovery id discovery).Uses Command.Unbound := by
  unfold replaceResourceDiscovery
  apply uses_bind (uses_currentTime.mpr trivial)
  intro now
  apply uses_bind (uses_query.mpr trivial)
  intro applications
  apply uses_bind (uses_query.mpr trivial)
  intro entitlementIds
  apply uses_bind (uses_query.mpr trivial)
  intro roles
  apply uses_bind (uses_query.mpr trivial)
  intro consents
  unfold execute
  exact uses_perform.mpr (by trivial)

end Requests

/-! ## Runs -/

section Runs

variable {visited : World → Prop}

/-- A request that issues no token keeps its promises. -/
theorem answering_meets {α : Type} {request : ConsentRequest}
    (hrequest : ∀ input, request ≠ .issue input) {p : Request α} {w : World}
    (hp : p.Meets ((consentPromises visited).contract request) (fun _ _ => True) w) :
    (answering p).Meets ((consentPromises visited).contract request)
      ((consentPromises visited).post request) w := by
  have hpost : ∀ r t, (consentPromises visited).post request r t :=
    fun _ _ input _ hissue => absurd hissue (hrequest input)
  rw [answering, meets_bind]
  refine hp.mono ?_
  rintro (e | a) t _ <;> exact hpost _ t

theorem consentPromises_sound [Platform] : (consentPromises visited).Sound consentSystem where
  refl := ConsentsPersist.refl
  trans := ConsentsPersist.trans
  stable _ _ _ _ h _ := h
  program request w _ := by
    have hunbound : ∀ {α : Type} {p : Request α}, p.Uses Command.Unbound →
        p.Meets ((consentPromises visited).contract request) (fun _ _ => True) w :=
      fun hp => (unbound_meets hp (returns_true _) w).mono fun _ _ _ => trivial
    cases request with
    | createConsent input userId =>
      exact answering_meets (by simp) (createConsent_meets input userId w)
    | issue input =>
      change Meets _ _ ((authorizeAccessTokenScopes input).bind _) w
      rw [meets_bind]
      refine (authorizeAccessTokenScopes_meets input w).mono ?_
      rintro (e | authorized) t h
      · intro _ _ _ hok
        cases hok
      · intro _ _ hissue hok
        cases hissue
        cases hok
        exact h
    | revokeConsent consentId userId =>
      refine answering_meets (by simp) (hunbound ?_)
      exact uses_bind (revokeGrant_uses _) fun _ => uses_throwIf
    | revokeAuthorization authorizationId =>
      exact answering_meets (by simp)
        (hunbound (putApplicationAuthorizationRevocation_uses authorizationId))
    | replaceDiscovery id discovery =>
      exact answering_meets (by simp) (hunbound (replaceResourceDiscovery_uses id discovery))
  exec request c w hinv _ hpromise := consents_exec hpromise hinv
  environment e w hinv := by
    cases e <;> exact ⟨hinv, ConsentsPersist.refl _⟩

/-- What a consent says is what the user agreed to since it was last withdrawn. -/
theorem findConsent_consented {db : Database} {key : ConsentKey} {consent : ApplicationConsent}
    (h : db.findConsent key = some consent) {scope : String} (hscope : scope ∈ consent.scopes) :
    db.Consented key scope := by
  have hmem := List.mem_of_mem_head? h
  rw [List.mem_insertionSort, List.mem_filter] at hmem
  simp only [Bool.and_eq_true, decide_eq_true_eq] at hmem
  exact ⟨consent, hmem.1, hmem.2.1, hmem.2.2, hscope⟩

/-- The condition on every command of a run. -/
def AllCurrent [Platform] (s : World) (schedule : List (Action Reply ConsentRequest ConsentEvent)) :
    Prop :=
  ∀ entry ∈ (idle s).history consentSystem schedule,
    ConsentCurrent entry.1 entry.2.1 entry.2.2

instance [Platform] (s : World) (schedule : List (Action Reply ConsentRequest ConsentEvent)) :
    Decidable (AllCurrent s schedule) :=
  inferInstanceAs (Decidable (∀ entry ∈ (idle s).history consentSystem schedule, _))

variable [Platform] {s : World} {schedule : List (Action Reply ConsentRequest ConsentEvent)}

/-- In the state that a run reaches, every scope of an active consent of a user has been
consented to since the last withdrawal. -/
theorem consented_since (hempty : s.db.applicationConsents = [])
    (hvisited : ∀ entry ∈ (idle s).history consentSystem schedule, visited entry.2.2)
    (hcurrent : AllCurrent s schedule) {key : ConsentKey} {scope : String}
    (h : ((idle s).run consentSystem schedule).state.db.Consented key scope) :
    ConsentedSince visited ((idle s).history consentSystem schedule) key scope := by
  have hinv : (consentPromises visited).inv s := by
    change Table.Keyed (·.id) s.db.applicationConsents
    rw [hempty]
    exact List.nodup_nil
  refine (@consentPromises_sound visited _).recorded hinv (fun _ _ _ => trivial)
    (fun entry hentry => ⟨hvisited entry hentry, hcurrent entry hentry⟩)
    (I := fun log w => ∀ key scope, w.db.Consented key scope →
      ConsentedSince visited log key scope) ?_ ?_ ?_ key scope h
  · intro key scope hconsented
    obtain ⟨row, hrow, -⟩ := hconsented
    rw [hempty] at hrow
    cases hrow
  · intro log request c w _ hcond hpromise hlog key scope hafter
    exact consentedSince_exec hpromise hcond.2 (hlog key scope) hafter
  · intro log e w _ hlog key scope hafter
    cases e <;> exact hlog key scope hafter

end Runs

/-- After the schedule, every scope that `findConsent` answers was consented to by that user
through `createConsent` since the consent was last withdrawn, and a token for a user that was
issued while the Application asked for consent holds no scope of a resource to which the user
has not consented. -/
def ConsentsExplicit [Platform] (s : World)
    (schedule : List (Action Reply ConsentRequest ConsentEvent)) : Prop :=
  let visited := (· ∈ (idle s).states consentSystem schedule)
  let history := (idle s).history consentSystem schedule
  let reached := (idle s).run consentSystem schedule
  (∀ key consent, reached.state.db.findConsent key = some consent →
    ∀ scope ∈ consent.scopes, ConsentedSince visited history key scope) ∧
  ∀ input p authorized, (.issue input, p) ∈ reached.procs →
    p.result? = some (.ok (.issued authorized)) → ∀ user ∈ input.user,
      authorized.consentRequired = true → ∀ scope ∈ authorized.scopes,
        isOidcScope scope = false → ∃ key, TokenKey visited input user key ∧
          ∃ entry ∈ history, Consents visited key scope entry

/-- Consents are explicit in every run in which each write of a consent is current. -/
theorem consents_explicit [Platform] {s : World} (hempty : s.db.applicationConsents = [])
    {schedule : List (Action Reply ConsentRequest ConsentEvent)}
    (hcurrent : AllCurrent s schedule) : ConsentsExplicit s schedule := by
  unfold ConsentsExplicit
  intro visited history reached
  have hvisited : ∀ entry ∈ history, visited entry.2.2 := fun entry => history_mem_states _
  constructor
  · intro key consent hconsent scope hscope
    exact consented_since hempty hvisited hcurrent (findConsent_consented hconsent hscope)
  · intro input p authorized hp hresult user huser hrequired scope hscope hresource
    have hinv : (consentPromises visited).inv s := by
      change Table.Keyed (·.id) s.db.applicationConsents
      rw [hempty]
      exact List.nodup_nil
    have hrun := (@consentPromises_sound visited _).run hinv (fun _ _ _ => trivial)
      fun entry hentry => ⟨hvisited entry hentry, hcurrent entry hentry⟩
    have hissued := hrun.finished hp hresult input authorized rfl rfl
    obtain ⟨key, hkey, t, ht, hconsented⟩ := hissued user huser hrequired scope hscope hresource
    obtain ⟨before, after, rfl, rfl⟩ := exists_prefix consentSystem ht
    have hpart : ∀ entry ∈ (idle s).history consentSystem before, entry ∈ history := by
      intro entry hentry
      change entry ∈ (idle s).history consentSystem (before ++ after)
      rw [history_append]
      exact List.mem_append_left _ hentry
    obtain ⟨first, entry, last, hsplit, hconsents, -⟩ := consented_since hempty
      (fun entry hentry => hvisited entry (hpart entry hentry))
      (fun entry hentry => hcurrent entry (hpart entry hentry)) hconsented
    exact ⟨key, hkey, entry, hpart entry (by simp [hsplit]), hconsents⟩

/-! ## A policy that becomes a consent -/

namespace PolicyExample

attribute [local instance] samplePlatform

def resource : ApiResource :=
  { id := "files", identifier := "files", name := "Files", description := none
    resourceUrl := "https://files.example", authorizationModel := .native, connectorId := none
    authorizationDetails := [], enabled := true, ownerOrganizationId := "realm"
    visibility := .public
    scopeRegistry := some { scopes := [⟨"read", none, .automatic⟩, ⟨"write", none, .automatic⟩] }
    availableToAgents := true, deletedAt := none, updatedAt := 0 }

def database (consentRequired : Bool) : Database :=
  { organizations := [{ id := "realm", slug := "realmroot", disabled := false }]
    apiResources := [resource]
    applications := [
      { id := "app", oauthClientId := "client", ownerOrganizationId := "realm"
        visibility := .public, oidcScopes := ["openid"]
        resourceScopes := [{ resourceServerId := "files", scopes := ["read", "write"] }]
        tokenExchangePolicies := [], consentRequired := consentRequired, disabled := false
        updatedAt := 0 }]
    oauthClients := [
      { clientId := "client", clientSecret := none, disabled := false, grantTypes := [] }] }

def start : World := { db := database true, clock := 10, nextId := 0 }

/-- The user consents to reading. -/
def consenting : CreateConsentRequest :=
  { clientId := "client", resourceServerId := some "files", scopes := ["read"] }

theorem ada_ne_empty : "ada" ≠ "" := by decide

/-- The Application asks for a token that reads and writes. -/
def token : OAuthTokenInput :=
  { user := some { id := "ada", id_ne_empty := ada_ne_empty }, scopes := ["read", "write"]
    resource := some "https://files.example", referenceId := none
    metadata := some [("applicationId", .str "app")], grantType := some "authorization_code" }

/-- A request that runs to its end. -/
def served (i : ℕ) (request : ConsentRequest) : List (Action Reply ConsentRequest ConsentEvent) :=
  .start request :: List.replicate 16 (.advance i {})

/-- The user consents, and a token is issued. -/
def asked : List (Action Reply ConsentRequest ConsentEvent) :=
  served 0 (.createConsent consenting "ada") ++ served 1 (.issue token)

/-- After the consent, the Application asks for none while a token is issued, and for one again
when the next token is. -/
def waived : List (Action Reply ConsentRequest ConsentEvent) :=
  served 0 (.createConsent consenting "ada") ++ [.environment (.configure (database false))] ++
    served 1 (.issue token) ++ [.environment (.configure (database true))] ++
      served 2 (.issue token)

def key : ConsentKey :=
  { applicationId := "app", userId := "ada", resourceServerId := some "files" }

/-- The policy adds writing to the consent of the user, who has never agreed to it. -/
theorem consents_not_explicit :
    ¬ ∀ s schedule, s.db.applicationConsents = [] → ConsentsExplicit s schedule := by
  intro h
  have hscope : ∃ consent ∈ ((idle start).run consentSystem waived).state.db.findConsent key,
      "write" ∈ consent.scopes := by decide +kernel
  obtain ⟨consent, hconsent, hwrite⟩ := hscope
  obtain ⟨before, entry, after, hsplit, hconsents, -⟩ :=
    (h start waived rfl).1 key consent hconsent "write" hwrite
  have hnever : ∀ entry ∈ (idle start).history consentSystem waived,
      "write" ∉ entry.1.words := by decide +kernel
  exact hnever entry (by simp [hsplit]) hconsents.2.1

/-- The answer of a request that has finished. -/
def answer (schedule : List (Action Reply ConsentRequest ConsentEvent)) (i : ℕ) :
    Option (Except Error ConsentAnswer) :=
  ((idle start).run consentSystem schedule).procs[i]?.bind fun entry => entry.2.result?

/-- While the Application asks for consent, the token reads only, as the user agreed. -/
theorem consents_explicit_asked :
    answer asked 1 = some (.ok (.issued { scopes := ["read"], consentRequired := true })) ∧
      ConsentsExplicit start asked :=
  ⟨by decide +kernel, consents_explicit rfl (by decide +kernel)⟩

/-- The last token writes, though the Application asked for consent when it was issued. -/
example : answer waived 2 =
    some (.ok (.issued { scopes := ["read", "write"], consentRequired := true })) := by
  decide +kernel

end PolicyExample

end Realmroot
