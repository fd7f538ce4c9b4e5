import Realmroot.TokenSystem

/-!
# Refresh rotation

The discipline of the token system: its store of refresh tokens is valid, every
rotation replaces the token that was presented, and what a child carries was
requested with its parent.
-/

namespace Realmroot

open AtomicProgram Program Rotation

section Tokens

variable [Platform] (accepts : TokenRequest → Prop) (visited : World → Prop)

/-- What states of the run show the Application to have at an audience: a scope that it
lists there, and that is an OIDC scope or effective at the resource. -/
def MayHave (application : ApplicationAggregate) (audience scope : String) : Prop :=
  ∃ s resource, visited s ∧ s.db.findResourceByResourceUrl audience = some resource ∧
    scope ∈ application.oidcScopes ++ application.configuredScopes resource.id ∧
      (scope ∈ application.oidcScopes ∨ ∃ t u, visited t ∧ visited u ∧
        scope ∈ currentRegistryScopes resource (automaticScopes resource ++
          (u.db.listActiveApplicationScopeEntitlements application.id resource.id t.clock).map
            (·.scope)))

/-- The scopes were requested with the token, and the Application of its client
may have them. -/
def Granted (parent : TokenExchangeRefreshToken) (scopes : List String) : Prop :=
  ∃ input credentials, accepts (.refresh input credentials) ∧
    parent.tokenHash = Platform.hashProviderSecret input.refreshToken ∧
      ∃ u application, visited u ∧
        u.db.findApplicationByClientId parent.clientId = some application ∧
          ∀ scope ∈ scopes, scope ∈ requestedScopes (some (refreshScope input parent)) ∧
            MayHave visited application parent.audience scope

/-- What holds of the stored refresh tokens at any time. -/
structure ValidTokens (rows : List TokenExchangeRefreshToken) : Prop where
  valid : Valid tokenScheme rows
  hashed : ∀ a ∈ rows, ∀ b ∈ rows, a.tokenHash = b.tokenHash → a.id = b.id
  words : ∀ row ∈ rows, ∀ scope ∈ row.scopes, IsScopeToken scope
  granted : ∀ row ∈ rows, ∀ parent ∈ rows, row.parentId = some parent.id →
    Granted accepts visited parent row.scopes

variable {accepts visited} {rows : List TokenExchangeRefreshToken}
  {row parent : TokenExchangeRefreshToken}

theorem Granted.of_core {old : TokenExchangeRefreshToken} {scopes : List String}
    (h : Granted accepts visited old scopes) (hcore : row.core = old.core) :
    Granted accepts visited row scopes := by
  have hsame := core_eq hcore
  obtain ⟨input, credentials, haccepts, hold, u, application, hu, hfind, hmay⟩ := h
  refine ⟨input, credentials, haccepts, by rw [hsame.tokenHash, hold], u, application, hu, ?_, ?_⟩
  · rw [hsame.clientId, hfind]
  · unfold refreshScope at hmay ⊢
    rw [hsame.scopes, hsame.audience]
    exact hmay

theorem validTokens_nil : ValidTokens accepts visited [] where
  valid := valid_nil
  hashed _ ha := absurd ha List.not_mem_nil
  words _ ha := absurd ha List.not_mem_nil
  granted _ ha := absurd ha List.not_mem_nil

theorem ValidTokens.eq_of_id (h : ValidTokens accepts visited rows)
    {a b : TokenExchangeRefreshToken} (ha : a ∈ rows) (hb : b ∈ rows) (hid : a.id = b.id) :
    a = b :=
  List.inj_on_of_nodup_map h.valid.keyed ha hb hid

theorem ValidTokens.eq_of_hash (h : ValidTokens accepts visited rows)
    {a b : TokenExchangeRefreshToken} (ha : a ∈ rows) (hb : b ∈ rows)
    (hhash : a.tokenHash = b.tokenHash) : a = b :=
  h.eq_of_id ha hb (h.hashed a ha b hb hhash)

theorem ValidTokens.map {f : TokenExchangeRefreshToken → TokenExchangeRefreshToken}
    (h : ValidTokens accepts visited rows) (hf : Ages tokenScheme f) :
    ValidTokens accepts visited (rows.map f) where
  valid := h.valid.map hf
  hashed _ ha' _ hb' hhash := by
    obtain ⟨a, ha, rfl⟩ := List.mem_map.mp ha'
    obtain ⟨b, hb, rfl⟩ := List.mem_map.mp hb'
    have ha' := core_eq (hf.core a)
    have hb' := core_eq (hf.core b)
    rw [ha'.tokenHash, hb'.tokenHash] at hhash
    rw [ha'.id, hb'.id]
    exact h.hashed a ha b hb hhash
  words _ ha' := by
    obtain ⟨a, ha, rfl⟩ := List.mem_map.mp ha'
    rw [(core_eq (hf.core a)).scopes]
    exact h.words a ha
  granted _ ha' _ hb' hparent := by
    obtain ⟨a, ha, rfl⟩ := List.mem_map.mp ha'
    obtain ⟨b, hb, rfl⟩ := List.mem_map.mp hb'
    have ha' := core_eq (hf.core a)
    rw [ha'.parentId, (core_eq (hf.core b)).id] at hparent
    rw [ha'.scopes]
    exact (h.granted a ha b hb hparent).of_core (hf.core b)

/-- What every new refresh token brings: a name, a hash and words. -/
structure NewToken (rows : List TokenExchangeRefreshToken) (row : TokenExchangeRefreshToken) :
    Prop where
  id : ∀ old ∈ rows, old.id ≠ row.id
  hash : ∀ old ∈ rows, old.tokenHash ≠ row.tokenHash
  words : ∀ scope ∈ row.scopes, IsScopeToken scope

/-- A new token may be appended if the store stays valid, and if what it carries
was granted to it by its parent. -/
theorem ValidTokens.append (h : ValidTokens accepts visited rows) (hnew : NewToken rows row)
    (hvalid : Valid tokenScheme (rows ++ [row]))
    (hgranted : ∀ id, row.parentId = some id →
      ∃ parent ∈ rows, parent.id = id ∧ Granted accepts visited parent row.scopes) :
    ValidTokens accepts visited (rows ++ [row]) where
  valid := hvalid
  hashed a ha b hb hhash := by
    rcases List.mem_append.mp ha with ha | ha <;> rcases List.mem_append.mp hb with hb | hb
    · exact h.hashed a ha b hb hhash
    · rw [List.mem_singleton.mp hb] at hhash
      exact absurd hhash (hnew.hash a ha)
    · rw [List.mem_singleton.mp ha] at hhash
      exact absurd hhash.symm (hnew.hash b hb)
    · rw [List.mem_singleton.mp ha, List.mem_singleton.mp hb]
  words a ha := by
    rcases List.mem_append.mp ha with ha | ha
    · exact h.words a ha
    · rw [List.mem_singleton.mp ha]
      exact hnew.words
  granted a ha b hb hparent := by
    -- A parent precedes its child, so the new row is nobody's parent.
    rcases List.mem_append.mp ha with ha | ha <;> rcases List.mem_append.mp hb with hb | hb
    · exact h.granted a ha b hb hparent
    · rw [List.mem_singleton.mp hb] at hparent
      obtain ⟨p, hp, hid, -⟩ := h.valid.lineage.parent_mem a ha _ hparent
      exact absurd hid (hnew.id p hp)
    · rw [List.mem_singleton.mp ha] at hparent ⊢
      obtain ⟨p, hp, hid, hscopes⟩ := hgranted _ hparent
      exact h.eq_of_id hp hb hid ▸ hscopes
    · rw [List.mem_singleton.mp ha, List.mem_singleton.mp hb] at hparent
      obtain ⟨p, hp, hid, -⟩ := hgranted _ hparent
      exact absurd hid (hnew.id p hp)

/-- A root whose family is not there yet. -/
theorem ValidTokens.append_root (h : ValidTokens accepts visited rows)
    (hnew : NewToken rows row) (hroot : row.parentId = none)
    (hfamily : ∀ old ∈ rows, old.familyId ≠ row.familyId) :
    ValidTokens accepts visited (rows ++ [row]) ∧ Evolves tokenScheme rows (rows ++ [row]) := by
  have hvalid : Valid tokenScheme (rows ++ [row]) := by
    apply h.valid.append hnew.id
    · exact Or.inl ⟨hroot, hfamily⟩
    · intro old hold hsame
      exact absurd hsame (hfamily old hold)
    · intro old _ hne
      exact absurd hroot hne
  constructor
  · apply h.append hnew hvalid
    intro id hid
    rw [hroot] at hid
    cases hid
  · apply evolves_append
    rintro ⟨old, hold, hsame⟩
    exact absurd hsame (hfamily old hold)

/-- The child of an unspent token, which is consumed. -/
theorem ValidTokens.append_child (h : ValidTokens accepts visited rows) (now : Time)
    (hnew : NewToken rows row) (hparent : parent ∈ rows)
    (hid : row.parentId = some parent.id) (hfamily : row.familyId = parent.familyId)
    (hunspent : parent.isUnspent = true)
    (hchildless : ∀ old ∈ rows, old.parentId ≠ some parent.id)
    (hgranted : Granted accepts visited parent row.scopes) :
    let consumed := Table.updateWhere (Database.parentIsActive (some parent.id)) (·.consume now) rows
    ValidTokens accepts visited (consumed ++ [row]) ∧
      Evolves tokenScheme rows (consumed ++ [row]) := by
  intro consumed
  have hages : Ages tokenScheme fun r : TokenExchangeRefreshToken =>
      if Database.parentIsActive (some parent.id) r then r.consume now else r :=
    ages_updateWhere (ages_consume now)
  have hconsumed : ValidTokens accepts visited consumed := h.map hages
  have hactive : Database.parentIsActive (some parent.id) parent = true := by
    simp [Database.parentIsActive, hunspent]
  have hthere : parent.consume now ∈ consumed := Table.mem_updateWhere_of_pos hparent hactive
  have hold : ∀ r ∈ consumed, ∃ old ∈ rows, r.core = old.core :=
    fun r hr => core_of_mem_updateWhere (ages_consume now) hr
  have hnew' : NewToken consumed row := by
    constructor
    · intro r hr
      obtain ⟨old, hmem, hcore⟩ := hold r hr
      rw [(core_eq hcore).id]
      exact hnew.id old hmem
    · intro r hr
      obtain ⟨old, hmem, hcore⟩ := hold r hr
      rw [(core_eq hcore).tokenHash]
      exact hnew.hash old hmem
    · exact hnew.words
  have hvalid : Valid tokenScheme (consumed ++ [row]) := by
    apply hconsumed.valid.append hnew'.id
    · exact Or.inr ⟨_, hthere, hid, hfamily.symm⟩
    · -- The only unspent token of the family was the parent.
      intro r hr hsame
      obtain ⟨old, hmem, rfl⟩ := Table.mem_updateWhere.mp hr
      by_cases hspent : old.isUnspent = true
      · have hcore := hages.core old
        have hfamily' : old.familyId = parent.familyId :=
          (core_eq hcore).familyId.symm.trans (hsame.trans hfamily)
        have heq : old = parent := h.eq_of_id hmem hparent
          (h.valid.one_unspent old hmem parent hparent hfamily'
            (tokenScheme_not_spent.mpr hspent) (tokenScheme_not_spent.mpr hunspent))
        subst heq
        rw [if_pos hactive]
        rfl
      · exact hages.spent old (Bool.eq_false_iff.mpr hspent)
    · intro r hr _
      obtain ⟨old, hmem, hcore⟩ := hold r hr
      have hparents := (core_eq hcore).parentId
      change r.parentId ≠ row.parentId
      rw [hparents, hid]
      exact hchildless old hmem
  constructor
  · apply hconsumed.append hnew' hvalid
    intro id hrow
    rw [hid, Option.some.injEq] at hrow
    subst hrow
    exact ⟨parent.consume now, hthere, rfl, hgranted.of_core rfl⟩
  · -- The family is alive: its parent was not revoked.
    refine (evolves_map hages).trans (evolves_append fun _ hdead => ?_)
    have hrevoked := hdead (parent.consume now) hthere hfamily.symm
    simp only [TokenExchangeRefreshToken.isUnspent, Bool.and_eq_true, Option.isNone_iff_eq_none]
      at hunspent
    change parent.revokedAt.isSome = true at hrevoked
    rw [hunspent.2] at hrevoked
    cases hrevoked

/-! ## The discipline -/

variable (signer : TokenExchangeJwtSigner)

/-- The access token is the one that was signed for these scopes. -/
def SignedFor (tokenHash : String) (scopes : List String) : Prop :=
  ∃ (input : JwtAccessTokenInput) (jti : String), input.scopes = scopes ∧
    tokenHash = Platform.hashProviderSecret
      (signer.sign (accessTokenPayload signer.issuer input jti) "at+jwt")

variable (accepts visited) in
/-- A rotation that replaces a token by a child to which its scopes were granted. -/
structure Replaces (parent : TokenExchangeRefreshToken) (input : RotateRefreshTokenInput) :
    Prop where
  parentId : input.refreshToken.parentId = some parent.id
  familyId : input.refreshToken.familyId = parent.familyId
  granted : Granted accepts visited parent input.refreshToken.scopes
  accessScopes : input.accessToken.scopes = input.refreshToken.scopes
  signed : SignedFor signer input.accessToken.tokenHash input.accessToken.scopes

/-- A refresh token that was presented, and the child that was returned for it. -/
def Refreshed (input : TokenRefreshRequest) (response : TokenExchangeResponse) (w : World) :
    Prop :=
  ∃ presented ∈ w.db.tokenExchangeRefreshTokens,
    presented.tokenHash = Platform.hashProviderSecret input.refreshToken ∧
      ∃ child ∈ w.db.tokenExchangeRefreshTokens, child.parentId = some presented.id ∧
        child.familyId = presented.familyId ∧
          response.refreshToken.map Platform.hashProviderSecret = some child.tokenHash

variable (accepts visited) in
def rotation : 
    Pool.Discipline Command World Reply Error TokenExchangeResponse TokenRequest TokenEvent where
  inv w := ValidTokens accepts visited w.db.tokenExchangeRefreshTokens
  moves s t := Evolves tokenScheme s.db.tokenExchangeRefreshTokens t.db.tokenExchangeRefreshTokens
  accepts := accepts
  allowed c s := visited s ∧ ∀ n, tokenNames.stores c n → ¬ tokenNames.stored s n
  admits _ _ := True
  promise
    | .rotateRefreshToken input _, s =>
      ∃ parent ∈ s.db.tokenExchangeRefreshTokens, Replaces accepts visited signer parent input
    | .revokeRefreshTokenFamily familyId _, s =>
      ∃ row ∈ s.db.tokenExchangeRefreshTokens, row.familyId = familyId
    | _, _ => True
  post
    | .refresh input _, .ok response, s => Refreshed input response s
    | _, _, _ => True

/-! ## What the commands do -/

/-- A command that only ages refresh tokens, or leaves them alone. -/
def IsQuiet : Command → Prop
  | .insertRefreshToken _ => False
  | .rotateRefreshToken _ _ => False
  | .revokeRefreshTokenFamily _ _ => False
  | .access _ => False
  | .membership _ => False
  | _ => True

variable {w : World}

/-- A step that ages the refresh tokens keeps the discipline. -/
theorem keeps_updateWhere (h : (rotation accepts visited signer).inv w)
    {p : TokenExchangeRefreshToken → Bool}
    {f : TokenExchangeRefreshToken → TokenExchangeRefreshToken} (hf : Ages tokenScheme f)
    {t : World} (ht : t.db.tokenExchangeRefreshTokens =
      Table.updateWhere p f w.db.tokenExchangeRefreshTokens) :
    (rotation accepts visited signer).inv t ∧ (rotation accepts visited signer).moves w t := by
  have hages : Ages tokenScheme fun r => if p r then f r else r := ages_updateWhere hf
  have hinv : ValidTokens accepts visited (Table.updateWhere p f w.db.tokenExchangeRefreshTokens) :=
    ValidTokens.map h hages
  change ValidTokens accepts visited t.db.tokenExchangeRefreshTokens ∧
    Evolves tokenScheme _ t.db.tokenExchangeRefreshTokens
  rw [ht]
  exact ⟨hinv, evolves_map hages⟩

/-- A step that leaves the refresh tokens alone keeps the discipline. -/
theorem keeps_same (h : (rotation accepts visited signer).inv w) {t : World}
    (ht : t.db.tokenExchangeRefreshTokens = w.db.tokenExchangeRefreshTokens) :
    (rotation accepts visited signer).inv t ∧ (rotation accepts visited signer).moves w t := by
  change ValidTokens accepts visited t.db.tokenExchangeRefreshTokens ∧
    Evolves tokenScheme _ t.db.tokenExchangeRefreshTokens
  rw [ht]
  exact ⟨h, Evolves.refl _⟩

omit [Platform] in
theorem storeAccessToken_refreshTokens (row : TokenExchangeAccessToken) (w : World) :
    (exec (Command.storeAccessToken row) w).db.tokenExchangeRefreshTokens =
      w.db.tokenExchangeRefreshTokens := by
  change (commit (Database.insertAccessToken row) w).db.tokenExchangeRefreshTokens = _
  unfold commit Statement.after
  split
  · rename_i u db hok
    rw [Database.insertAccessToken_ok hok]
  · rfl

theorem quiet_rotation : Quiet (rotation accepts visited signer).contract IsQuiet := by
  have hkeeps : ∀ c, IsQuiet c → ∀ s, (rotation accepts visited signer).inv s →
      (rotation accepts visited signer).inv (exec c s) ∧
        (rotation accepts visited signer).moves s (exec c s) := by
    intro c hc s hs
    cases c with
    | storeAccessToken row =>
      exact keeps_same signer hs (storeAccessToken_refreshTokens row s)
    | revokeRefreshToken id now => exact keeps_updateWhere signer hs (ages_revoke now) rfl
    | insertRefreshToken row => exact hc.elim
    | rotateRefreshToken input now => exact hc.elim
    | revokeRefreshTokenFamily familyId now => exact hc.elim
    | access command => exact hc.elim
    | membership command => exact hc.elim
    | _ => exact keeps_same signer hs (sameTokens_exec rfl s).2
  constructor
  · exact fun s => Evolves.refl _
  · exact fun h h' => h.trans h'
  · intro c hc s hs
    obtain ⟨hinv, hmoves⟩ := hkeeps c hc s hs.1
    refine ⟨hinv, hmoves, ?_⟩
    cases c <;> trivial
  · exact fun c hc s hs => (hkeeps c hc s hs.1).2

/-- The root that an exchange stores. -/
theorem keeps_insertRefreshToken (h : (rotation accepts visited signer).inv w)
    (row : TokenExchangeRefreshToken) (hroot : row.parentId = none) (hwords : ∀ scope ∈ row.scopes, IsScopeToken scope)
    (hnames : ∀ n, tokenNames.stores (.insertRefreshToken row) n → ¬ tokenNames.stored w n) :
    (rotation accepts visited signer).inv (exec (Command.insertRefreshToken row) w) ∧
      (rotation accepts visited signer).moves w (exec (Command.insertRefreshToken row) w) := by
  change (rotation accepts visited signer).inv (commit (Database.insertRefreshToken row) w) ∧
    (rotation accepts visited signer).moves w (commit (Database.insertRefreshToken row) w)
  unfold commit Statement.after
  split
  · rename_i u db hok
    obtain ⟨hnew, -, rfl⟩ := Database.insertRefreshToken_ok hok
    apply ValidTokens.append_root h _ hroot
    · -- The name of the family is new, and every family has its root in the store.
      intro old hold hsame
      obtain ⟨root, hmem, hnone, hfamily⟩ := h.valid.lineage.root_mem old hold
      refine hnames row.familyId (Or.inr rfl) (Or.inl ⟨root, hmem, Or.inr ⟨hnone, ?_⟩⟩)
      exact (hfamily.trans hsame).symm
    · exact ⟨fun old hold => (hnew old hold).1, fun old hold => (hnew old hold).2, hwords⟩
  · exact keeps_same signer h rfl

/-- The child that a rotation stores, with the answer that this gives. -/
theorem keeps_rotateRefreshToken (h : (rotation accepts visited signer).inv w)
    {input : RotateRefreshTokenInput} {now : Time} (hparent : parent ∈ w.db.tokenExchangeRefreshTokens)
    (hreplaces : Replaces accepts visited signer parent input)
    (hnames : ∀ n, tokenNames.stores (.rotateRefreshToken input now) n → ¬ tokenNames.stored w n) :
    (rotation accepts visited signer).inv (exec (Command.rotateRefreshToken input now) w) ∧
      (rotation accepts visited signer).moves w (exec (Command.rotateRefreshToken input now) w) := by
  change (rotation accepts visited signer).inv (commit (Database.rotateRefreshToken input now) w) ∧
    (rotation accepts visited signer).moves w (commit (Database.rotateRefreshToken input now) w)
  have hids : ∀ old ∈ w.db.tokenExchangeRefreshTokens, old.id ≠ input.refreshToken.id := by
    intro old hold he
    exact hnames _ (Or.inl rfl) (Or.inl ⟨old, hold, Or.inl he.symm⟩)
  unfold commit Statement.after
  split
  · rename_i a db hok
    rcases Database.rotateRefreshToken_cases h.valid.keyed hids hok with
      ⟨-, rfl, -⟩ | ⟨-, active, hactive, hid, hunspent, hold, rfl⟩
    · exact keeps_same signer h rfl
    · have hsame : active = parent := by
        apply h.eq_of_id hactive hparent
        have hids := hid.symm.trans hreplaces.parentId
        exact Option.some.inj hids
      subst hsame
      apply ValidTokens.append_child h now _ hparent hid hreplaces.familyId hunspent
      · exact fun old hmem => (hold old hmem).2
      · exact hreplaces.granted
      · refine ⟨hids, fun old hmem => (hold old hmem).1, fun scope hscope => ?_⟩
        obtain ⟨_, _, _, _, _, _, _, _, hlisted⟩ := hreplaces.granted
        exact isScopeToken_of_mem_requestedScopes (hlisted scope hscope).1
  · exact keeps_same signer h rfl

/-! ## The programs -/

variable {signer}

/-- A request that ends in an error has nothing to establish. -/
theorem rotation_throw {e : Error} {request : TokenRequest} (s : World) :
    (MonadExcept.throw e : Request TokenExchangeResponse).Meets (rotation accepts visited signer).contract
      ((rotation accepts visited signer).post request) s := by
  cases request <;> trivial

theorem rotation_post_error {e : Error} {request : TokenRequest} (s : World) :
    (rotation accepts visited signer).post request (.error e) s := by
  cases request <;> trivial

/-- Quiet commands at the head of a request. -/
theorem rotation_quiet {α : Type} {p : Request α} {next : α → Request TokenExchangeResponse}
    {request : TokenRequest} (hp : p.Uses IsQuiet)
    (h : ∀ a t, Evolves tokenScheme w.db.tokenExchangeRefreshTokens t.db.tokenExchangeRefreshTokens →
      (next a).Meets (rotation accepts visited signer).contract
        ((rotation accepts visited signer).post request) t) :
    (p >>= next).Meets (rotation accepts visited signer).contract
      ((rotation accepts visited signer).post request) w :=
  (quiet_rotation signer).meets_bind hp h fun _ t _ => rotation_post_error t

/-- A call at the head of a request, of which it is known what its value satisfies. -/
theorem rotation_call {α : Type} {p : Request α} {next : α → Request TokenExchangeResponse}
    {request : TokenRequest} {Q : α → Prop}
    (hp : p.Meets (rotation accepts visited signer).contract (fun r t =>
      Evolves tokenScheme w.db.tokenExchangeRefreshTokens t.db.tokenExchangeRefreshTokens ∧
        ∀ a, r = .ok a → Q a) w)
    (h : ∀ a t, Q a →
      Evolves tokenScheme w.db.tokenExchangeRefreshTokens t.db.tokenExchangeRefreshTokens →
        (next a).Meets (rotation accepts visited signer).contract
          ((rotation accepts visited signer).post request) t) :
    (p >>= next).Meets (rotation accepts visited signer).contract
      ((rotation accepts visited signer).post request) w := by
  rw [Program.bind_eq, meets_bind]
  refine hp.mono ?_
  rintro (e | a) t ⟨hwt, ha⟩
  · exact rotation_post_error t
  · exact h a t (ha a rfl) hwt

/-- Quiet commands at the head of a request, with what they can return. -/
theorem rotation_quiet_returns {α : Type} {p : Request α}
    {next : α → Request TokenExchangeResponse} {request : TokenRequest} {Q : α → Prop}
    (hp : p.Uses IsQuiet) (hQ : p.Returns Q)
    (h : ∀ a t, Q a →
      Evolves tokenScheme w.db.tokenExchangeRefreshTokens t.db.tokenExchangeRefreshTokens →
        (next a).Meets (rotation accepts visited signer).contract
          ((rotation accepts visited signer).post request) t) :
    (p >>= next).Meets (rotation accepts visited signer).contract
      ((rotation accepts visited signer).post request) w :=
  (quiet_rotation signer).meets_bind_returns hp hQ h fun _ t _ => rotation_post_error t

/-- The token is stored, though it may have been consumed or revoked since it was read. -/
def Stored (row : TokenExchangeRefreshToken) (w : World) : Prop :=
  ∃ row' ∈ w.db.tokenExchangeRefreshTokens, row'.core = row.core

omit [Platform] in
theorem Stored.evolves {t : World} (h : Stored row w)
    (hwt : Evolves tokenScheme w.db.tokenExchangeRefreshTokens t.db.tokenExchangeRefreshTokens) :
    Stored row t := by
  obtain ⟨row', hrow', hcore⟩ := h
  obtain ⟨row'', hrow'', hcore', -⟩ := hwt.kept row' hrow'
  exact ⟨row'', hrow'', hcore'.trans hcore⟩

/-- The family of a token that is in the store may be revoked. -/
theorem rotation_revokeFamily {request : TokenRequest} {e : Error} {now : Time}
    (hrow : Stored row w) :
    (revokeRefreshTokenFamily row.familyId now >>= fun _ => MonadExcept.throw e).Meets
      (rotation accepts visited signer).contract
        ((rotation accepts visited signer).post request) w := by
  apply meets_perform
  intro t hst ht
  obtain ⟨row', hrow', hcore⟩ := hrow.evolves hst
  obtain ⟨hinv, hmoves⟩ := keeps_updateWhere signer ht.1 (ages_revoke now)
    (t := exec (Command.revokeRefreshTokenFamily row.familyId now) t) rfl
  refine ⟨⟨hinv, hmoves, row', hrow', (core_eq hcore).familyId⟩, ?_⟩
  exact rotation_throw _

theorem issueJwtAccessToken_returns (signer : TokenExchangeJwtSigner)
    (input : JwtAccessTokenInput) :
    (issueJwtAccessToken signer input).Returns fun token =>
      SignedFor signer (Platform.hashProviderSecret token) input.scopes :=
  fun reply => ⟨input, reply.random, rfl, rfl⟩

theorem prepareRefreshToken_returns (clientId familyId : String) (parentId : Option String)
    (grant : RefreshTokenGrant) :
    (prepareRefreshToken clientId familyId parentId grant).Returns fun prepared =>
      prepared.record.familyId = familyId ∧ prepared.record.parentId = parentId ∧
        prepared.record.scopes = grant.scopes ∧
          prepared.record.tokenHash = Platform.hashProviderSecret prepared.token :=
  fun _ _ _ => ⟨rfl, rfl, rfl, rfl⟩

theorem prepareRefreshToken_quiet (clientId familyId : String) (parentId : Option String)
    (grant : RefreshTokenGrant) :
    (prepareRefreshToken clientId familyId parentId grant).Uses IsQuiet :=
  uses_bind uses_randomString fun _ => uses_bind (uses_currentTime.mpr trivial) fun _ =>
    uses_bind (uses_generateId.mpr trivial) fun _ => trivial

theorem Replaces.of_core {old : TokenExchangeRefreshToken} {input : RotateRefreshTokenInput}
    (h : Replaces accepts visited signer old input) (hcore : row.core = old.core) :
    Replaces accepts visited signer row input where
  parentId := by rw [h.parentId, (core_eq hcore).id]
  familyId := by rw [h.familyId, (core_eq hcore).familyId]
  granted := h.granted.of_core hcore
  accessScopes := h.accessScopes
  signed := h.signed

/-- The identifier of a child that is about to be stored is new. -/
theorem ids_of_unstored {input : RotateRefreshTokenInput} {now : Time}
    (hnames : ∀ n, tokenNames.stores (.rotateRefreshToken input now) n → ¬ tokenNames.stored w n) :
    ∀ old ∈ w.db.tokenExchangeRefreshTokens, old.id ≠ input.refreshToken.id := by
  intro old hold he
  exact hnames _ (Or.inl rfl) (Or.inl ⟨old, hold, Or.inl he.symm⟩)

omit [Platform] in
theorem storeAccessToken_quiet (input : AccessTokenInput) :
    (storeAccessToken input).Uses IsQuiet :=
  uses_bind (uses_currentTime.mpr trivial) fun _ => uses_perform.mpr trivial

/-- A rotation that answers true has consumed an unspent token, and has stored its
child and the access token. -/
theorem rotated_of_true (h : (rotation accepts visited signer).inv w)
    {input : RotateRefreshTokenInput} {now : Time} {db : Database}
    (hnames : ∀ n, tokenNames.stores (.rotateRefreshToken input now) n → ¬ tokenNames.stored w n)
    (hok : Database.rotateRefreshToken input now w.db = .ok (true, db)) :
    ∃ parent ∈ w.db.tokenExchangeRefreshTokens, input.refreshToken.parentId = some parent.id ∧
      parent.isUnspent = true ∧ input.refreshToken.toRow now ∈ db.tokenExchangeRefreshTokens ∧
        input.accessToken.toRow now ∈ db.tokenExchangeAccessTokens := by
  rcases Database.rotateRefreshToken_cases h.valid.keyed (ids_of_unstored hnames) hok with
    ⟨hfalse, -, -⟩ | ⟨-, parent, hparent, hid, hunspent, -, rfl⟩
  · cases hfalse
  · exact ⟨parent, hparent, hid, hunspent, by simp, by simp⟩

/-- What the answer of a rotation means to the program that asked for it. -/
def RotationAnswer (row : TokenExchangeRefreshToken) (input : RotateRefreshTokenInput)
    (s : World) : Except Error Bool → World → Prop
  | .ok stored, t =>
    Evolves tokenScheme s.db.tokenExchangeRefreshTokens t.db.tokenExchangeRefreshTokens ∧
      (stored = true → ∃ child ∈ t.db.tokenExchangeRefreshTokens, child.parentId = some row.id ∧
        child.familyId = row.familyId ∧ child.tokenHash = input.refreshToken.tokenHash)
  | .error _, _ => True

theorem rotateRefreshToken_meets {input : RotateRefreshTokenInput} (hrow : Stored row w)
    (hreplaces : Replaces accepts visited signer row input) :
    (rotateRefreshToken input).Meets (rotation accepts visited signer).contract
      (RotationAnswer row input w) w := by
  unfold rotateRefreshToken
  refine (quiet_rotation signer).meets_bind (uses_currentTime.mpr trivial) (fun now s hws => ?_)
    fun _ _ _ => trivial
  apply meets_perform_last
  intro t hst ht
  have hevolves : Evolves tokenScheme w.db.tokenExchangeRefreshTokens
      t.db.tokenExchangeRefreshTokens := hws.trans hst
  obtain ⟨parent, hparent, hcore⟩ := hrow.evolves hevolves
  have hreplaces' := hreplaces.of_core hcore
  obtain ⟨hinv, hmoves⟩ := keeps_rotateRefreshToken signer ht.1 hparent hreplaces' ht.2.2
  refine ⟨⟨hinv, hmoves, parent, hparent, hreplaces'⟩, ?_⟩
  cases hok : Database.rotateRefreshToken input now t.db with
  | error e => trivial
  | ok answer =>
    obtain ⟨stored, db⟩ := answer
    refine ⟨hevolves.trans hmoves, ?_⟩
    rintro rfl
    obtain ⟨-, -, -, -, hchild, -⟩ := rotated_of_true ht.1 ht.2.2 hok
    have hdb : (exec (Command.rotateRefreshToken input now) t).db = db :=
      Statement.after_of_ok hok
    rw [hdb]
    exact ⟨_, hchild, hreplaces.parentId, hreplaces.familyId, rfl⟩

theorem rotate_meets {clientId : String} {now : Time} {scopes : List String}
    {input : TokenRefreshRequest} {credentials : ClientCredentials} (hrow : Stored row w)
    (hhash : row.tokenHash = Platform.hashProviderSecret input.refreshToken)
    (hgranted : Granted accepts visited row scopes) :
    (rotate signer clientId row now scopes).Meets (rotation accepts visited signer).contract
      ((rotation accepts visited signer).post (.refresh input credentials)) w := by
  unfold rotate
  refine rotation_quiet_returns (issueJwtAccessToken_reads _ _) (issueJwtAccessToken_returns _ _)
    fun accessToken s hsigned hws => ?_
  refine rotation_quiet_returns (prepareRefreshToken_quiet _ _ _ _)
    (prepareRefreshToken_returns _ _ _ _) fun rotated t hrotated hst => ?_
  obtain ⟨hfamily, hparent, hscopes, htoken⟩ := hrotated
  refine rotation_quiet (uses_generateId.mpr trivial) fun id u htu => ?_
  have hrow' := hrow.evolves ((hws.trans hst).trans htu)
  rw [Program.bind_eq, meets_bind]
  refine (rotateRefreshToken_meets hrow' ?_).mono ?_
  · constructor
    · exact hparent
    · exact hfamily
    · rw [hscopes]
      exact hgranted
    · exact hscopes.symm
    · exact hsigned
  · rintro (e | stored) v hv
    · trivial
    · obtain ⟨huv, hchild⟩ := hv
      have hrow'' := hrow'.evolves huv
      rw [andThen_ok]
      split_ifs with hstored
      · exact rotation_revokeFamily hrow''
      · obtain ⟨presented, hpresented, hcore⟩ := hrow''
        have hsame := core_eq hcore
        obtain ⟨child, hmem, hchildParent, hchildFamily, hchildHash⟩ :=
          hchild (by simpa using hstored)
        refine ⟨presented, hpresented, ?_, child, hmem, ?_, ?_, ?_⟩
        · rw [hsame.tokenHash, hhash]
        · rw [hchildParent, hsame.id]
        · rw [hchildFamily, hsame.familyId]
        · rw [hchildHash, htoken]
          rfl

omit [Platform] in
theorem findRefreshTokenByHash_eq_some {db : Database} {tokenHash : String}
    (h : db.findRefreshTokenByHash tokenHash = some row) :
    row ∈ db.tokenExchangeRefreshTokens ∧ row.tokenHash = tokenHash := by
  unfold Database.findRefreshTokenByHash at h
  exact ⟨List.mem_of_find?_eq_some h, by simpa using List.find?_some h⟩

/-- The Application of a client, as some state of the run has it. -/
theorem requireApplicationByClientId_meets {clientId : String}
    {next : ApplicationAggregate → Request TokenExchangeResponse} {request : TokenRequest}
    (h : ∀ application t,
      (∃ u, visited u ∧ u.db.findApplicationByClientId clientId = some application) →
        (next application).Meets (rotation accepts visited signer).contract
          ((rotation accepts visited signer).post request) t) :
    (requireApplicationByClientId clientId >>= next).Meets (rotation accepts visited signer).contract
      ((rotation accepts visited signer).post request) w := by
  rw [Program.bind_eq, meets_bind]
  unfold requireApplicationByClientId
  apply meets_query
  intro u _ hu
  refine ⟨(quiet_rotation signer).guarantee .read trivial u hu, ?_⟩
  cases hfound : u.db.findApplicationByClientId clientId with
  | none => exact rotation_post_error u
  | some application =>
    by_cases hdisabled : application.disabled = true
    · simp only [Option.filter, hdisabled]
      exact rotation_post_error u
    · simp only [Option.filter, hdisabled]
      exact h application u ⟨u, hu.2.1, hfound⟩

/-- Whatever others do meanwhile, the scopes that are resolved were requested, and states
of the run show that the Application may have them. -/
theorem resolveApplicationTokenScopes_meets (application : ApplicationAggregate)
    (audience : String) (scope : Option String) :
    (resolveApplicationTokenScopes application audience scope).Meets
      (rotation accepts visited signer).contract (fun r t =>
        Evolves tokenScheme w.db.tokenExchangeRefreshTokens t.db.tokenExchangeRefreshTokens ∧
          ∀ scopes, r = .ok scopes → ∀ item ∈ scopes, item ∈ requestedScopes scope ∧
            MayHave visited application audience item) w := by
  have hquiet : Quiet (rotation accepts visited signer).contract IsQuiet := quiet_rotation signer
  unfold resolveApplicationTokenScopes
  apply meets_query
  intro s hws hs
  refine ⟨hquiet.guarantee .read trivial s hs, ?_⟩
  apply meets_orThrow
  · intro _
    refine ⟨hws, fun scopes h => ?_⟩
    cases h
  intro resource hfound
  rw [Option.filter_eq_some_iff] at hfound
  unfold resolveApplicationTokenScopesForResource
  dsimp only
  split
  · refine ⟨hws, fun scopes h => ?_⟩
    cases h
  rename_i requested hrequested
  obtain ⟨rfl, hallowed⟩ := normalizeScopes_eq_ok hrequested
  rw [Program.bind_eq, meets_bind]
  unfold applicationEffectiveResourceScopes
  apply meets_currentTime
  intro t hst ht
  refine ⟨hquiet.guarantee .read trivial t ht, ?_⟩
  split_ifs
  · refine ⟨hws.trans hst, ?_⟩
    rintro _ ⟨rfl⟩ item hitem
    obtain ⟨hmem, hkeep⟩ := List.mem_filter.mp hitem
    have hoidc : item ∈ application.oidcScopes := by simpa using hkeep
    exact ⟨hmem, s, resource, hs.2.1, hfound.1, hallowed item hmem, Or.inl hoidc⟩
  · apply meets_query
    intro u htu hu
    refine ⟨hquiet.guarantee .read trivial u hu, (hws.trans hst).trans htu, ?_⟩
    rintro _ ⟨rfl⟩ item hitem
    obtain ⟨hmem, hkeep⟩ := List.mem_filter.mp hitem
    refine ⟨hmem, s, resource, hs.2.1, hfound.1, hallowed item hmem, ?_⟩
    by_cases hoidc : item ∈ application.oidcScopes
    · exact Or.inl hoidc
    · exact Or.inr ⟨t, u, ht.2.1, hu.2.1, by simpa [hoidc] using hkeep⟩

theorem refreshToken_meets {input : TokenRefreshRequest} {credentials : ClientCredentials}
    (haccepts : accepts (.refresh input credentials)) :
    (refreshToken input credentials signer).Meets (rotation accepts visited signer).contract
      ((rotation accepts visited signer).post (.refresh input credentials)) w := by
  have hread : IsQuiet .read := trivial
  unfold refreshToken
  refine rotation_quiet uses_throwIf fun _ _ _ => ?_
  refine rotation_quiet (authenticateApplicationClient_reads hread _) fun ⟨client, _⟩ _ _ => ?_
  refine requireApplicationByClientId_meets fun application _ happlication => ?_
  refine rotation_quiet uses_throwIf fun _ _ _ => ?_
  apply meets_query
  intro s _ hs
  refine ⟨(quiet_rotation signer).guarantee .read trivial s hs, ?_⟩
  apply meets_orThrow
  · exact fun _ => rotation_post_error s
  intro row hfound
  rw [Option.filter_eq_some_iff] at hfound
  obtain ⟨hmem, hhash⟩ := findRefreshTokenByHash_eq_some hfound.1
  have hclient : row.clientId = client.clientId := by simpa using hfound.2
  have hrow : Stored row s := ⟨row, hmem, rfl⟩
  refine rotation_quiet (uses_currentTime.mpr hread) fun now t hst => ?_
  split_ifs
  · exact rotation_revokeFamily (hrow.evolves hst)
  · refine rotation_quiet uses_throwIf fun _ u htu => ?_
    refine rotation_quiet (uses_query.mpr hread) fun _ v huv => ?_
    refine rotation_quiet uses_orThrow fun _ x hvx => ?_
    refine rotation_quiet (isStillEligible_reads hread ..) fun eligible y hxy => ?_
    have hrow' := hrow.evolves ((((hst.trans htu).trans huv).trans hvx).trans hxy)
    split_ifs
    · exact rotation_revokeFamily hrow'
    · refine rotation_call (resolveApplicationTokenScopes_meets _ _ _) fun scopes z hscopes hyz => ?_
      obtain ⟨u, hu, happlication⟩ := happlication
      rw [← hclient] at happlication
      exact rotate_meets (hrow'.evolves hyz) hhash
        ⟨input, credentials, haccepts, hhash, u, application, hu, happlication, hscopes⟩

/-- The refresh token of an exchange starts a family. -/
theorem storeRefreshToken_meets {input : RefreshTokenInput} (hroot : input.parentId = none)
    (hwords : ∀ scope ∈ input.scopes, IsScopeToken scope) :
    (storeRefreshToken input).Meets (rotation accepts visited signer).contract
      (fun _ _ => True) w := by
  have hquiet : Quiet (rotation accepts visited signer).contract IsQuiet := quiet_rotation signer
  have hread : IsQuiet .read := trivial
  unfold storeRefreshToken
  refine hquiet.meets_bind (uses_currentTime.mpr hread) (fun now _ _ => ?_) fun _ _ _ => trivial
  apply meets_perform
  intro t _ ht
  obtain ⟨hinv, hmoves⟩ := keeps_insertRefreshToken signer ht.1 (input.toRow now) hroot
    hwords ht.2.2
  refine ⟨⟨hinv, hmoves, trivial⟩, ?_⟩
  split
  · refine (hquiet.meets ?_ _).mono fun _ _ _ => trivial
    refine uses_bind (uses_query.mpr hread) fun revoked => ?_
    split_ifs
    · trivial
    · refine uses_bind (uses_currentTime.mpr hread) fun _ => ?_
      exact uses_bind (uses_perform.mpr trivial) fun _ => trivial
  · trivial

theorem exchangeAssertion_meets {input : TokenExchangeRequest} {credentials : ClientCredentials} :
    (exchangeAssertion input credentials signer).Meets (rotation accepts visited signer).contract
      ((rotation accepts visited signer).post (.exchange input credentials)) w := by
  have hread : IsQuiet .read := trivial
  unfold exchangeAssertion
  refine rotation_quiet uses_throwIf fun _ _ _ => ?_
  refine rotation_quiet (authenticateApplicationClient_reads hread _) fun ⟨client, _⟩ _ _ => ?_
  refine rotation_quiet uses_throwIf fun _ _ _ => ?_
  refine rotation_quiet uses_throwIf fun _ _ _ => ?_
  refine rotation_quiet uses_throwIf fun _ _ _ => ?_
  split
  · exact rotation_throw _
  refine rotation_quiet uses_orThrow fun _ _ _ => ?_
  refine rotation_quiet uses_orThrow fun _ _ _ => ?_
  refine rotation_quiet (resolveCredential_reads hread ..) fun _ _ _ => ?_
  refine rotation_quiet uses_throwIf fun _ _ _ => ?_
  refine rotation_quiet uses_throwIf fun _ _ _ => ?_
  refine rotation_quiet (isEligibleAudience_reads hread ..) fun _ _ _ => ?_
  refine rotation_quiet uses_throwIf fun _ _ _ => ?_
  refine rotation_call (resolveApplicationTokenScopes_meets _ _ _) fun scopes _ hscopes _ => ?_
  have hwords : ∀ scope ∈ scopes, IsScopeToken scope := fun scope hscope =>
    isScopeToken_of_mem_requestedScopes (hscopes scope hscope).1
  refine rotation_quiet uses_throwIf fun _ _ _ => ?_
  refine rotation_quiet (verifySubjectToken_reads hread _ _) fun _ _ _ => ?_
  refine rotation_quiet (uses_currentTime.mpr hread) fun _ _ _ => ?_
  refine rotation_quiet (issueJwtAccessToken_reads _ _) fun _ _ _ => ?_
  refine rotation_quiet (uses_generateId.mpr trivial) fun _ _ _ => ?_
  refine rotation_quiet (storeAccessToken_quiet _) fun _ _ _ => ?_
  split_ifs
  · refine rotation_quiet (uses_generateId.mpr trivial) fun familyId _ _ => ?_
    rw [Program.bind_eq, meets_bind]
    unfold issueRefreshToken
    refine (quiet_rotation signer).meets_bind_returns (prepareRefreshToken_quiet _ _ _ _)
      (prepareRefreshToken_returns _ _ _ _) (fun prepared t hprepared _ => ?_)
      fun _ _ _ => trivial
    obtain ⟨-, hroot, hprepared, -⟩ := hprepared
    rw [Program.bind_eq, meets_bind]
    refine (storeRefreshToken_meets hroot ?_).mono ?_
    · rw [hprepared]
      exact hwords
    · rintro (e | stored) u -
      · trivial
      · refine (meets_throwIf (fun _ => ?_) fun _ => ?_) <;> trivial
  · trivial

theorem rotation_sound : (rotation accepts visited signer).Sound (tokenSystem signer) where
  refl s := Evolves.refl _
  trans h h' := h.trans h'
  stable request result s t h hst := by
    cases request with
    | exchange input credentials => trivial
    | refresh input credentials =>
      cases result with
      | error e => trivial
      | ok response =>
        obtain ⟨presented, hpresented, hhash, child, hchild, hparent, hfamily, htoken⟩ := h
        obtain ⟨presented', hpresented', hcore, -⟩ := hst.kept presented hpresented
        obtain ⟨child', hchild', hcore', -⟩ := hst.kept child hchild
        have hsame := core_eq hcore
        have hsame' := core_eq hcore'
        refine ⟨presented', hpresented', by rw [hsame.tokenHash, hhash], child', hchild', ?_, ?_, ?_⟩
        · rw [hsame'.parentId, hparent, hsame.id]
        · rw [hsame'.familyId, hfamily, hsame.familyId]
        · rw [htoken, hsame'.tokenHash]
  program request s haccepts _ := by
    cases request with
    | exchange input credentials => exact exchangeAssertion_meets
    | refresh input credentials => exact refreshToken_meets haccepts
  environment e s hs _ := by
    cases e with
    | elapse milliseconds => exact keeps_same signer hs rfl
    | configure db => exact keeps_same signer hs rfl
    | withdraw credentialIds => exact keeps_updateWhere signer hs (ages_revoke s.clock) rfl

end Tokens

end Realmroot
