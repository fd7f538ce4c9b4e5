import Realmroot.Library.Rotation
import Realmroot.Repos.TokenExchange

/-!
# The refresh tokens as a store of rotating credentials

What each statement of the repository does to the table of refresh tokens: it
ages rows, starts a family, or replaces an unspent token by its child.
-/

namespace Realmroot

open Rotation

/-- The part of a refresh token that no statement changes. -/
def TokenExchangeRefreshToken.core (row : TokenExchangeRefreshToken) :
    TokenExchangeRefreshToken :=
  { row with consumedAt := none, revokedAt := none }

def tokenScheme : Scheme TokenExchangeRefreshToken TokenExchangeRefreshToken String String where
  core := TokenExchangeRefreshToken.core
  id row := row.id
  family row := row.familyId
  parent row := row.parentId
  spent row := row.isUnspent = false
  revoked row := row.revokedAt.isSome
  spent_of_revoked row h := by
    simp only [TokenExchangeRefreshToken.isUnspent, Bool.and_eq_false_iff]
    exact Or.inr (by simpa using h)

@[simp] theorem tokenScheme_idOf (row : TokenExchangeRefreshToken) :
    tokenScheme.idOf row = row.id := rfl

@[simp] theorem tokenScheme_familyOf (row : TokenExchangeRefreshToken) :
    tokenScheme.familyOf row = row.familyId := rfl

@[simp] theorem tokenScheme_parentOf (row : TokenExchangeRefreshToken) :
    tokenScheme.parentOf row = row.parentId := rfl

theorem tokenScheme_not_spent {row : TokenExchangeRefreshToken} :
    ¬ tokenScheme.spent row ↔ row.isUnspent = true := by
  change ¬ row.isUnspent = false ↔ _
  simp

/-- One token at two times. -/
structure SameToken (row' row : TokenExchangeRefreshToken) : Prop where
  id : row'.id = row.id
  familyId : row'.familyId = row.familyId
  parentId : row'.parentId = row.parentId
  tokenHash : row'.tokenHash = row.tokenHash
  clientId : row'.clientId = row.clientId
  audience : row'.audience = row.audience
  scopes : row'.scopes = row.scopes

/-- Rows with one core agree in everything but their ends. -/
theorem core_eq {row row' : TokenExchangeRefreshToken} (h : row'.core = row.core) :
    SameToken row' row := by
  have hfield : ∀ {β : Type} (f : TokenExchangeRefreshToken → β), f row'.core = f row.core :=
    fun f => congrArg f h
  exact
    { id := hfield (·.id), familyId := hfield (·.familyId), parentId := hfield (·.parentId)
      tokenHash := hfield (·.tokenHash), clientId := hfield (·.clientId)
      audience := hfield (·.audience), scopes := hfield (·.scopes) }

/-- Consuming or revoking the rows that a condition selects ages the table. -/
theorem ages_updateWhere {p : TokenExchangeRefreshToken → Bool}
    {f : TokenExchangeRefreshToken → TokenExchangeRefreshToken} (hf : Ages tokenScheme f) :
    Ages tokenScheme fun row => if p row then f row else row where
  core row := by
    split_ifs
    · exact hf.core row
    · rfl
  spent row h := by
    split_ifs
    · exact hf.spent row h
    · exact h
  revoked row h := by
    split_ifs
    · exact hf.revoked row h
    · exact h

theorem core_of_mem_updateWhere {p : TokenExchangeRefreshToken → Bool}
    {f : TokenExchangeRefreshToken → TokenExchangeRefreshToken} (hf : Ages tokenScheme f)
    {rows : List TokenExchangeRefreshToken} {row : TokenExchangeRefreshToken}
    (h : row ∈ Table.updateWhere p f rows) : ∃ old ∈ rows, row.core = old.core := by
  obtain ⟨old, hold, rfl⟩ := Table.mem_updateWhere.mp h
  have hages : Ages tokenScheme fun row => if p row then f row else row := ages_updateWhere hf
  exact ⟨old, hold, hages.core old⟩

theorem ages_consume (now : Time) : Ages tokenScheme (TokenExchangeRefreshToken.consume now) where
  core _ := rfl
  spent _ _ := rfl
  revoked _ h := h

theorem ages_revoke (now : Time) : Ages tokenScheme (TokenExchangeRefreshToken.revoke now) where
  core _ := rfl
  spent row _ := by
    change (row.consumedAt.isNone && false) = false
    simp
  revoked _ _ := rfl

namespace Database

variable {db db' : Database}

theorem insertRefreshToken_ok {row : TokenExchangeRefreshToken} {a : Unit}
    (h : insertRefreshToken row db = .ok (a, db')) :
    (∀ old ∈ db.tokenExchangeRefreshTokens, old.id ≠ row.id ∧ old.tokenHash ≠ row.tokenHash) ∧
      (∀ old ∈ db.tokenExchangeRefreshTokens, row.parentId ≠ none →
        old.parentId ≠ row.parentId) ∧
      db' = { db with tokenExchangeRefreshTokens := db.tokenExchangeRefreshTokens ++ [row] } := by
  unfold insertRefreshToken at h
  split_ifs at h with hid hhash hparent
  cases h
  refine ⟨fun old hold => ⟨fun he => ?_, fun he => ?_⟩, ?_, rfl⟩
  · exact hid (List.any_eq_true.mpr ⟨old, hold, by simpa using he⟩)
  · exact hhash (List.any_eq_true.mpr ⟨old, hold, by simpa using he⟩)
  intro old hold hne he
  refine hparent (List.any_eq_true.mpr ⟨old, hold, ?_⟩)
  rw [he]
  simpa using Option.isSome_iff_ne_none.mpr hne

theorem insertAccessToken_ok {row : TokenExchangeAccessToken} {a : Unit}
    (h : insertAccessToken row db = .ok (a, db')) :
    db' = { db with tokenExchangeAccessTokens := db.tokenExchangeAccessTokens ++ [row] } := by
  unfold insertAccessToken at h
  split_ifs at h
  cases h
  rfl

/-- The child is inserted next to an active parent, or nothing happens. -/
theorem insertChild_ok {input : RefreshTokenInput} {now : Time} {a : Bool}
    (h : insertChild input now db = .ok (a, db')) :
    (a = false ∧ db' = db ∧
      ∀ row ∈ db.tokenExchangeRefreshTokens, parentIsActive input.parentId row = false) ∨
    (a = true ∧
      (∃ parent ∈ db.tokenExchangeRefreshTokens, parentIsActive input.parentId parent = true) ∧
      (∀ old ∈ db.tokenExchangeRefreshTokens,
        old.id ≠ input.id ∧ old.tokenHash ≠ input.tokenHash) ∧
      (∀ old ∈ db.tokenExchangeRefreshTokens, input.parentId ≠ none →
        old.parentId ≠ input.parentId) ∧
      db' = { db with
        tokenExchangeRefreshTokens := db.tokenExchangeRefreshTokens ++ [input.toRow now] }) := by
  unfold insertChild at h
  split_ifs at h with hactive
  · obtain ⟨⟨u, withChild⟩, hinsert, hrest⟩ := Statement.bind_ok h
    cases hrest
    obtain ⟨hid, hparent, hdb⟩ := insertRefreshToken_ok hinsert
    exact Or.inr ⟨rfl, List.any_eq_true.mp hactive, hid, hparent, hdb⟩
  · cases h
    refine Or.inl ⟨rfl, rfl, fun row hrow => ?_⟩
    by_contra hne
    exact hactive (List.any_eq_true.mpr ⟨row, hrow, by simpa using hne⟩)

/-- The access token is inserted when the child is there. -/
theorem insertChildAccessToken_ok {input : RotateRefreshTokenInput} {now : Time} {a : Bool}
    (h : insertChildAccessToken input now db = .ok (a, db')) :
    (a = false ∧ db' = db ∧
      ∀ row ∈ db.tokenExchangeRefreshTokens, row.id ≠ input.refreshToken.id) ∨
    (a = true ∧ db' = { db with
      tokenExchangeAccessTokens :=
        db.tokenExchangeAccessTokens ++ [input.accessToken.toRow now] }) := by
  unfold insertChildAccessToken at h
  split_ifs at h with hthere
  · obtain ⟨⟨u, stored⟩, hinsert, hrest⟩ := Statement.bind_ok h
    cases hrest
    exact Or.inr ⟨rfl, insertAccessToken_ok hinsert⟩
  · cases h
    refine Or.inl ⟨rfl, rfl, fun row hrow he => ?_⟩
    exact hthere (List.any_eq_true.mpr ⟨row, hrow, by simpa using he⟩)

/-- The statements of a rotation, one after the other. -/
theorem rotateRefreshToken_ok {input : RotateRefreshTokenInput} {now : Time} {a : Bool}
    (h : rotateRefreshToken input now db = .ok (a, db')) :
    ∃ children withChild accessTokens,
      insertChild input.refreshToken now db = .ok (children, withChild) ∧
      insertChildAccessToken input now
        (consumeParent input.refreshToken.parentId now withChild).2 = .ok (accessTokens, db') ∧
      a = (children &&
        (consumeParent input.refreshToken.parentId now withChild).1 = 1 && accessTokens) := by
  unfold rotateRefreshToken at h
  obtain ⟨⟨children, withChild⟩, hchild, hrest⟩ := Statement.bind_ok h
  obtain ⟨⟨accessTokens, stored⟩, haccess, hlast⟩ := Statement.bind_ok hrest
  cases hlast
  exact ⟨children, withChild, accessTokens, hchild, haccess, rfl⟩

/-- Whatever a rotation answers, a row is one that was there, as it was at its core, or
the child; and a child has a parent. -/
theorem rotateRefreshToken_rows {input : RotateRefreshTokenInput} {now : Time} {a : Bool}
    (h : rotateRefreshToken input now db = .ok (a, db')) :
    (∀ row ∈ db'.tokenExchangeRefreshTokens,
      (∃ old ∈ db.tokenExchangeRefreshTokens, row.core = old.core) ∨
        (row.id = input.refreshToken.id ∧ row.parentId ≠ none)) ∧
      ∀ row ∈ db'.tokenExchangeAccessTokens,
        row ∈ db.tokenExchangeAccessTokens ∨ row.id = input.accessToken.id := by
  obtain ⟨children, withChild, accessTokens, hchild, haccess, -⟩ := rotateRefreshToken_ok h
  have hrows : (∀ row ∈ withChild.tokenExchangeRefreshTokens,
      row ∈ db.tokenExchangeRefreshTokens ∨
        (row = input.refreshToken.toRow now ∧ row.parentId ≠ none)) ∧
      withChild.tokenExchangeAccessTokens = db.tokenExchangeAccessTokens := by
    rcases insertChild_ok hchild with ⟨-, rfl, -⟩ | ⟨-, ⟨parent, -, hactive⟩, -, -, rfl⟩
    · exact ⟨fun row hrow => Or.inl hrow, rfl⟩
    · refine ⟨fun row hrow => ?_, rfl⟩
      rcases List.mem_append.mp hrow with hold | hnew
      · exact Or.inl hold
      · simp only [parentIsActive, Bool.and_eq_true, decide_eq_true_eq] at hactive
        rw [List.mem_singleton.mp hnew]
        exact Or.inr ⟨rfl, by simp [RefreshTokenInput.toRow, hactive.1]⟩
  have hconsumed : ∀ row ∈ (consumeParent input.refreshToken.parentId now
      withChild).2.tokenExchangeRefreshTokens,
      (∃ old ∈ db.tokenExchangeRefreshTokens, row.core = old.core) ∨
        (row.id = input.refreshToken.id ∧ row.parentId ≠ none) := by
    intro row hrow
    obtain ⟨old, hold, hcore⟩ := core_of_mem_updateWhere (ages_consume now) hrow
    rcases hrows.1 old hold with hthere | ⟨hnew, hparent⟩
    · exact Or.inl ⟨old, hthere, hcore⟩
    · obtain ⟨hid, -, hparent', -⟩ := core_eq hcore
      refine Or.inr ⟨?_, by rwa [hparent']⟩
      rw [hid, hnew]
      rfl
  rcases insertChildAccessToken_ok haccess with ⟨-, rfl, -⟩ | ⟨-, rfl⟩
  · exact ⟨hconsumed, fun row hrow => Or.inl (hrows.2 ▸ hrow)⟩
  · refine ⟨hconsumed, fun row hrow => ?_⟩
    rcases List.mem_append.mp hrow with hold | hnew
    · exact Or.inl (hrows.2 ▸ hold)
    · rw [List.mem_singleton.mp hnew]
      exact Or.inr rfl

/-- A rotation keeps the access tokens that were there. -/
theorem rotateRefreshToken_access {input : RotateRefreshTokenInput} {now : Time} {a : Bool}
    (h : rotateRefreshToken input now db = .ok (a, db')) :
    ∀ row ∈ db.tokenExchangeAccessTokens, row ∈ db'.tokenExchangeAccessTokens := by
  obtain ⟨children, withChild, accessTokens, hchild, haccess, -⟩ := rotateRefreshToken_ok h
  have hsame : withChild.tokenExchangeAccessTokens = db.tokenExchangeAccessTokens := by
    rcases insertChild_ok hchild with ⟨-, rfl, -⟩ | ⟨-, -, -, -, rfl⟩ <;> rfl
  intro row hrow
  rw [← hsame] at hrow
  rcases insertChildAccessToken_ok haccess with ⟨-, rfl, -⟩ | ⟨-, rfl⟩
  · exact hrow
  · exact List.mem_append_left _ hrow

/-- The one active parent of a keyed table. -/
theorem filter_parentIsActive {rows : List TokenExchangeRefreshToken}
    (hkeyed : (rows.map tokenScheme.idOf).Nodup) {parent : TokenExchangeRefreshToken}
    (hmem : parent ∈ rows) (hactive : parentIsActive (some parent.id) parent = true) :
    rows.filter (parentIsActive (some parent.id)) = [parent] := by
  have hkeyed' : Table.Keyed tokenScheme.idOf rows := hkeyed
  have hone := hkeyed'.filter_key hmem
  have hsame : rows.filter (parentIsActive (some parent.id)) =
      rows.filter fun r => tokenScheme.idOf r = tokenScheme.idOf parent := by
    refine List.filter_congr fun r hr => ?_
    by_cases hid : r.id = parent.id
    · have heq : r = parent := List.inj_on_of_nodup_map hkeyed hr hmem hid
      subst heq
      simpa using hactive
    · simp [parentIsActive, hid, Ne.symm hid]
  rw [hsame, hone]

/-- A rotation with a new child either finds no active parent and changes nothing, or
consumes its one parent and stores the child and the access token. -/
theorem rotateRefreshToken_cases {input : RotateRefreshTokenInput} {now : Time} {a : Bool}
    (hkeyed : (db.tokenExchangeRefreshTokens.map tokenScheme.idOf).Nodup)
    (hfresh : ∀ row ∈ db.tokenExchangeRefreshTokens, row.id ≠ input.refreshToken.id)
    (h : rotateRefreshToken input now db = .ok (a, db')) :
    (a = false ∧ db' = db ∧ ∀ row ∈ db.tokenExchangeRefreshTokens,
      parentIsActive input.refreshToken.parentId row = false) ∨
    (a = true ∧ ∃ parent ∈ db.tokenExchangeRefreshTokens,
      input.refreshToken.parentId = some parent.id ∧ parent.isUnspent = true ∧
      (∀ old ∈ db.tokenExchangeRefreshTokens, old.tokenHash ≠ input.refreshToken.tokenHash ∧
        old.parentId ≠ some parent.id) ∧
      db' = { db with
        tokenExchangeRefreshTokens :=
          Table.updateWhere (parentIsActive (some parent.id)) (·.consume now)
            db.tokenExchangeRefreshTokens ++ [input.refreshToken.toRow now]
        tokenExchangeAccessTokens :=
          db.tokenExchangeAccessTokens ++ [input.accessToken.toRow now] }) := by
  obtain ⟨children, withChild, accessTokens, hchild, haccess, ha⟩ := rotateRefreshToken_ok h
  rcases insertChild_ok hchild with ⟨hchildren, rfl, hnone⟩ | ⟨hchildren, hactive, hids, hparents, rfl⟩
  · left
    have hsame : (consumeParent input.refreshToken.parentId now withChild).2 = withChild := by
      have hrows : Table.updateWhere (parentIsActive input.refreshToken.parentId) (·.consume now)
          withChild.tokenExchangeRefreshTokens = withChild.tokenExchangeRefreshTokens :=
        Table.updateWhere_eq_self fun row hrow h => absurd h (by simp [hnone row hrow])
      simp only [consumeParent, hrows]
    rw [hsame] at haccess
    rcases insertChildAccessToken_ok haccess with ⟨-, hdb, -⟩ | ⟨hstored, -⟩
    · exact ⟨by simp [ha, hchildren], hdb, hnone⟩
    · subst hstored
      unfold insertChildAccessToken at haccess
      have hthere : withChild.tokenExchangeRefreshTokens.any
          (fun row => row.id = input.refreshToken.id) = false := by
        rw [List.any_eq_false]
        intro row hrow
        simpa using hfresh row hrow
      simp [hthere] at haccess
  · right
    obtain ⟨parent, hparent, hunspent⟩ := hactive
    have hid : input.refreshToken.parentId = some parent.id := by
      simp only [parentIsActive, Bool.and_eq_true, decide_eq_true_eq] at hunspent
      exact hunspent.1
    have hnew : parentIsActive input.refreshToken.parentId (input.refreshToken.toRow now) =
        false := by
      have hne : parent.id ≠ input.refreshToken.id := hfresh parent hparent
      simp [parentIsActive, hid, RefreshTokenInput.toRow, hne]
    have hone := filter_parentIsActive hkeyed hparent (hid ▸ hunspent)
    have hconsumed : (db.tokenExchangeRefreshTokens ++ [input.refreshToken.toRow now]).filter
        (parentIsActive input.refreshToken.parentId) = [parent] := by
      rw [List.filter_append, hid, hone, ← hid]
      simp [hnew]
    rcases insertChildAccessToken_ok haccess with ⟨-, -, habsent⟩ | ⟨hstored, hdb⟩
    · refine absurd rfl (habsent (input.refreshToken.toRow now) ?_)
      exact Table.mem_updateWhere_of_not (by simp) hnew
    · refine ⟨?_, parent, hparent, hid, ?_, ?_, ?_⟩
      · rw [ha, hchildren, hstored]
        simp only [consumeParent, hconsumed]
        rfl
      · simp only [parentIsActive, Bool.and_eq_true] at hunspent
        exact hunspent.2
      · intro old hold
        have hne := hparents old hold
        rw [hid] at hne
        exact ⟨(hids old hold).2, hne (by simp)⟩
      · rw [hdb, ← hid]
        simp [consumeParent, Table.updateWhere, hnew]

end Database
end Realmroot
