import Realmroot.ConnectionSystem
import Realmroot.Usecases.CatalogLoops

/-!
# Catalogs have a last page

A catalog states with each page how many items and pages there are, and may state another number
each time. The numbers are safe integers, so there is a page that is the last one whatever it
states, and the loops end there at the latest.
-/

namespace Realmroot

open AtomicProgram Program

section Paging

variable [Platform]

/-! ## What a page may state -/

theorem parseInteger_le {value : Option Json} {n : ℕ} (h : parseInteger value = some n) :
    n ≤ maxSafeInteger := by
  rw [parseInteger, Option.filter_eq_some_iff] at h
  exact Platform.acceptsInteger_le n h.2

theorem parsePagination_spec {json : Json} {pagination : PaginationMetadata}
    (h : parsePagination json = some pagination) :
    pagination.totalItems ≤ maxSafeInteger ∧
      pagination.totalPages = pageCount pagination.totalItems pagination.pageSize := by
  cases json with
  | obj fields =>
    simp only [parsePagination, Option.bind_eq_bind, Option.bind_eq_some_iff] at h
    obtain ⟨page, -, pageSize, -, totalItems, htotal, totalPages, -, h⟩ := h
    split_ifs at h with hinvalid
    cases h
    push Not at hinvalid
    exact ⟨parseInteger_le htotal, hinvalid.2.2⟩
  | _ => cases h

theorem parseCatalog_pagination {body : Option Json}
    {items : List AuthorizationDetailCatalogItem} {pagination : PaginationMetadata}
    (h : parseCatalog body = some (items, pagination)) :
    pagination.totalItems ≤ maxSafeInteger ∧
      pagination.totalPages = pageCount pagination.totalItems pagination.pageSize := by
  unfold parseCatalog at h
  split at h
  · dsimp only [Option.bind_eq_bind] at h
    split_ifs at h
    · cases h
    · split at h
      · simp only [Option.bind_eq_some_iff] at h
        obtain ⟨found, -, read, ⟨json, -, hjson⟩, h⟩ := h
        cases h
        exact parsePagination_spec hjson
      · cases h
  · cases h

omit [Platform] in
theorem pageCount_mono {total total' : ℕ} (h : total ≤ total') (limit : ℕ) :
    pageCount total limit ≤ pageCount total' limit :=
  Nat.div_le_div_right (by omega)

theorem checkCatalog_ok {resource : ApiResource} {page : ℕ}
    {items : List AuthorizationDetailCatalogItem} {pagination : PaginationMetadata}
    (h : checkCatalog resource page items pagination = .ok ()) :
    pagination.pageSize = catalogLimit ∧ pagination.page = page := by
  unfold checkCatalog at h
  split_ifs at h with hmismatch
  push Not at hmismatch
  exact hmismatch

/-! ## What a round reads -/

/-- The page that was asked for, of so many pages at most. -/
def Admitted (connection : ProviderResourceAuthorizationRecord) (page : ℕ)
    (catalog : AuthorizationDetailCatalog) : Prop :=
  catalog.page = page ∧ catalog.totalPages ≤ lastCatalogPage connection

theorem requestAuthorizationDetailCatalog_admitted (endpoint bearer : String)
    (resource : ApiResource) (connection : ProviderResourceAuthorizationRecord) (page : ℕ) :
    (requestAuthorizationDetailCatalog endpoint bearer resource page).Returns
      (Admitted connection page) := by
  apply (returns_true _).bind
  intro reply _
  apply (returns_true _).bind
  intro response _
  apply (returns_true _).bind
  intro _ _
  apply (returns_orThrow fun _ h => parseCatalog_pagination h).bind
  rintro ⟨items, pagination⟩ ⟨htotal, hpages⟩
  dsimp only
  cases hcheck : checkCatalog resource page items pagination with
  | error e => trivial
  | ok u =>
    obtain ⟨hsize, hpage⟩ := checkCatalog_ok hcheck
    refine ⟨hpage, ?_⟩
    rw [hpages, hsize]
    exact le_max_of_le_left (pageCount_mono htotal _)

theorem readResourceCatalog_admitted (resource : ApiResource)
    (connection : ProviderResourceAuthorizationRecord) (page : ℕ) :
    (readResourceCatalog resource connection page).Returns (Admitted connection page) := by
  apply (returns_true _).bind
  intro authorization _
  dsimp only
  split
  · apply (returns_true _).bind
    intro credential _
    apply (returns_true _).bind
    intro _ _
    apply (returns_true _).bind
    intro token _
    exact requestAuthorizationDetailCatalog_admitted _ _ _ _ _
  · exact ⟨rfl, le_max_right _ _⟩

/-! ## What a round asks of remote peers -/

def Command.isSend : Command → Bool
  | .send _ => true
  | _ => false

abbrev Command.Local (command : Command) : Prop := command.isSend = false

omit [Platform] in
theorem local_read : Command.read.Local := rfl

omit [Platform] in
theorem local_access (command : AccessCommand) : (Command.access command).Local := rfl

omit [Platform] in
theorem atMost_fetchPeer (request : PeerRequest) :
    (fetchPeer request).AtMost Command.isSend 1 :=
  ⟨fun _ => Nat.one_pos, fun _ _ => trivial⟩

theorem postForm_atMost (url : String) (form : List (String × String))
    (clientId clientSecret : String) (preserveInvalidGrant : Bool)
    (authentication : ClientAuthentication) :
    (postForm url form clientId clientSecret preserveInvalidGrant authentication).AtMost
      Command.isSend 1 := by
  apply (atMost_fetchPeer _).bind_uses
  intro reply
  apply uses_bind uses_orThrow
  intro response
  apply uses_bind uses_throwIf
  intro _
  exact uses_bind uses_throwIf fun _ => uses_ofResult

theorem requestAuthorizationDetailCatalog_atMost (endpoint bearer : String)
    (resource : ApiResource) (page : ℕ) :
    (requestAuthorizationDetailCatalog endpoint bearer resource page).AtMost
      Command.isSend 1 := by
  apply (atMost_fetchPeer _).bind_uses
  intro reply
  apply uses_bind uses_orThrow
  intro response
  apply uses_bind uses_throwIf
  intro _
  apply uses_bind uses_orThrow
  intro parsed
  exact uses_bind uses_ofResult fun _ => trivial

theorem requestRefresh_atMost (credential : ProviderCredential)
    (authorization : ExternalResourceAuthorization) (refreshToken claimId : String) :
    (requestRefresh credential authorization refreshToken claimId).AtMost Command.isSend 1 := by
  apply (postForm_atMost _ _ _ _ _ _).bind_uses
  intro token
  apply uses_bind uses_ofResult
  intro accessToken
  apply uses_bind uses_ofResult
  intro details
  apply uses_bind uses_throwIf
  intro _
  apply uses_bind (uses_currentTime.mpr local_read)
  intro refreshedAt
  apply uses_bind uses_sealSecret
  intro encryptedTokens
  apply uses_bind (uses_perform.mpr (local_access _))
  intro updated
  exact uses_bind uses_throwIf fun _ => trivial

omit [Platform] in
theorem recoverRefresh_uses (credential : ProviderCredential) (claimId : String) (error : Error) :
    (recoverRefresh credential claimId error).Uses Command.Local := by
  unfold recoverRefresh
  split
  · apply uses_bind (uses_currentTime.mpr local_read)
    intro now
    apply uses_bind
    · unfold revokeProviderCredential
      apply uses_bind (uses_perform.mpr (local_access _))
      intro revoked
      cases revoked with
      | none => trivial
      | some authorizationId => exact uses_bind (uses_perform.mpr (local_access _)) fun _ => trivial
    · exact fun _ => trivial
  · apply uses_bind (uses_currentTime.mpr local_read)
    intro now
    exact uses_bind (uses_perform.mpr (local_access _)) fun _ => trivial

theorem refreshConnectionToken_atMost (credential : ProviderCredential)
    (authorization : ExternalResourceAuthorization) :
    (refreshConnectionToken credential authorization).AtMost Command.isSend 1 := by
  apply Uses.atMost_bind uses_ofResult
  intro payload
  apply Uses.atMost_bind (uses_currentTime.mpr local_read)
  intro start
  split_ifs
  · apply Uses.atMost_bind uses_ofResult
    exact fun _ => trivial
  · apply Uses.atMost_bind (uses_generateId.mpr rfl)
    intro claimId
    apply Uses.atMost_bind (uses_currentTime.mpr local_read)
    intro now
    apply Uses.atMost_bind (uses_perform.mpr (local_access _))
    intro claimed
    apply Uses.atMost_bind uses_throwIf
    intro _
    apply Uses.atMost_bind uses_ofResult
    intro refreshToken
    have hrefresh := requestRefresh_atMost credential authorization refreshToken claimId
    exact hrefresh.tryCatch fun error =>
      (recoverRefresh_uses credential claimId error).atMost 0

theorem readResourceCatalog_atMost (resource : ApiResource)
    (connection : ProviderResourceAuthorizationRecord) (page : ℕ) :
    (readResourceCatalog resource connection page).AtMost Command.isSend 2 := by
  apply Uses.atMost_bind (externalAuthorizationOf_uses local_read _ _)
  intro authorization
  dsimp only
  split
  · apply Uses.atMost_bind uses_ofResult
    intro credential
    apply Uses.atMost_bind uses_throwIf
    intro _
    exact (refreshConnectionToken_atMost _ _).bind fun token =>
      requestAuthorizationDetailCatalog_atMost _ _ _ _
  · trivial

/-! ## The loops end -/

namespace CatalogLoop

variable {τ β : Type}

/-- The loop ends of itself: when it may run so many pages or more, it runs the same rounds, returns
or fails, and sends at most two requests for each page, one for a token and one for the page. -/
structure Ends (loop : CatalogLoop τ β) (resource : ApiResource)
    (connection : ProviderResourceAuthorizationRecord) (start : τ) : Prop where
  returns : (loop.run resource connection (lastCatalogPage connection) start).Returns
    fun result => result.isSome
  same : ∀ pages, lastCatalogPage connection ≤ pages →
    loop.run resource connection pages start =
      loop.run resource connection (lastCatalogPage connection) start
  requests : ∀ pages, (loop.run resource connection pages start).AtMost Command.isSend
    (2 * lastCatalogPage connection)

theorem round_goes_on (loop : CatalogLoop τ β) (resource : ApiResource)
    (connection : ProviderResourceAuthorizationRecord) (page : ℕ) (state : τ) :
    (loop.round resource connection page state).Returns fun result =>
      result.isLeft → page < lastCatalogPage connection := by
  apply (readResourceCatalog_admitted resource connection page).bind
  rintro catalog ⟨hpage, htotal⟩ hleft
  have hmore := loop.ends state catalog hleft
  omega

omit [Platform] in
theorem one_le_lastCatalogPage (connection : ProviderResourceAuthorizationRecord) :
    1 ≤ lastCatalogPage connection :=
  le_max_of_le_left (by decide)

theorem run_ends (loop : CatalogLoop τ β) (resource : ApiResource)
    (connection : ProviderResourceAuthorizationRecord) (start : τ) :
    loop.Ends resource connection start := by
  have hreturns : (loop.run resource connection (lastCatalogPage connection) start).Returns
      fun result => result.isSome :=
    rounds_ends (loop.round_goes_on resource connection) (one_le_lastCatalogPage connection)
      (by omega) start
  have hsame : ∀ pages, lastCatalogPage connection ≤ pages →
      loop.run resource connection pages start =
        loop.run resource connection (lastCatalogPage connection) start :=
    fun pages hpages => rounds_eq hreturns hpages
  have hround : ∀ page state,
      (loop.round resource connection page state).AtMost Command.isSend 2 :=
    fun page state =>
      (readResourceCatalog_atMost resource connection page).bind_uses fun _ => trivial
  have hrequests : ∀ pages, (loop.run resource connection pages start).AtMost Command.isSend
      (pages * 2) := fun pages => rounds_atMost hround pages 1 start
  refine ⟨hreturns, hsame, fun pages => ?_⟩
  rcases le_total pages (lastCatalogPage connection) with hle | hle
  · exact (hrequests pages).mono (by omega)
  · rw [hsame pages hle]
    exact (hrequests _).mono (by omega)

end CatalogLoop

/-- `accountScopesForAuthorizationDetails` runs its loop, which has ended before it would throw. -/
theorem readGrants_eq_rounds (resource : ApiResource)
    (connection : ProviderResourceAuthorizationRecord) (requested : List String)
    (pages page : ℕ) (granted : GrantedByDetail) :
    readGrants resource connection requested pages page granted =
      (rounds ((grantsLoop requested).round resource connection) pages page granted).bind fun
        | some granted => .pure granted
        | none => .throw
          (Error.badGateway "Authorization detail catalog could not be reached.") := by
  induction pages generalizing page granted with
  | zero => rfl
  | succ pages ih =>
    rw [rounds, Program.bind_assoc, CatalogLoop.round, Program.bind_eq, Program.bind_assoc]
    change (readResourceCatalog resource connection page).bind _ = _
    congr 1
    funext catalog
    rw [pure_eq, pure_bind]
    by_cases hdone : (recordGrants requested catalog.items granted).length = requested.length ∨
        catalog.totalPages ≤ catalog.page
    · have hvisit : (grantsLoop requested).visit granted catalog =
          .inr (recordGrants requested catalog.items granted) := by
        simp [grantsLoop, CatalogLoop.collect, hdone]
      rw [hvisit, if_pos hdone]
      rfl
    · have hvisit : (grantsLoop requested).visit granted catalog =
          .inl (recordGrants requested catalog.items granted) := by
        simp [grantsLoop, CatalogLoop.collect, hdone]
      rw [hvisit, if_neg hdone]
      exact ih _ _

/-- Each loop over a catalog ends, whatever its pages state. -/
theorem catalog_loops_end (resource : ApiResource)
    (connection : ProviderResourceAuthorizationRecord) :
    (∀ requested, (grantsLoop requested).Ends resource connection []) ∧
      (∀ detail, (approvalDetailLoop detail).Ends resource connection ()) ∧
        selectionsLoop.Ends resource connection [] ∧
          availableDetailsLoop.Ends resource connection [] :=
  ⟨fun _ => CatalogLoop.run_ends _ _ _ _, fun _ => CatalogLoop.run_ends _ _ _ _,
    CatalogLoop.run_ends _ _ _ _, CatalogLoop.run_ends _ _ _ _⟩

end Paging

end Realmroot
