import Realmroot.RefreshRotation

/-!
# The protocol of refresh rotation

What holds of the refresh tokens in every interleaving of exchanges, refreshes,
replays and revocations.
-/

namespace Realmroot

open AtomicProgram Program Rotation

/-! ## Runs -/

/-- The requests in progress after a schedule that starts without any token. -/
def tokenRun [Platform] (signer : TokenExchangeJwtSigner) (w : World)
    (schedule : List TokenAction) :
    Pool Command World Reply Error TokenExchangeResponse TokenRequest :=
  (Pool.idle w.withoutTokens).run (tokenSystem signer) schedule

section Runs

variable [Platform] (signer : TokenExchangeJwtSigner) (w : World)
  (schedule : List TokenAction)

theorem separate_withoutTokens :
    Pool.Separate tokenNames (fun _ _ => False)
      (Pool.idle w.withoutTokens : Pool Command World Reply Error TokenExchangeResponse
        TokenRequest) := by
  apply Pool.separate_idle
  rintro n (⟨row, hrow, -⟩ | ⟨row, hrow, -⟩) <;> cases hrow

/-- Identifiers have one owner in every run. -/
theorem tokenRun_separate : ∃ own, Pool.Separate tokenNames own (tokenRun signer w schedule) := by
  obtain ⟨own, h, -⟩ := (separate_withoutTokens w).run (tokenSystem_lawful signer) schedule
  exact ⟨own, h⟩

/-- Every run keeps the discipline. -/
theorem tokenRun_inv {accepts : TokenRequest → Prop} {visited : World → Prop}
    (haccepts : ∀ request, .start request ∈ schedule → accepts request)
    (hvisited : ∀ s ∈ (Pool.idle w.withoutTokens).states (tokenSystem signer) schedule, visited s) :
    (rotation accepts visited signer).Inv (tokenRun signer w schedule) := by
  have hidle : (rotation accepts visited signer).Inv (Pool.idle w.withoutTokens) :=
    Pool.Discipline.inv_idle validTokens_nil
  have halong := (separate_withoutTokens w).along (tokenSystem_lawful signer) accepts visited
    schedule haccepts hvisited
  exact (hidle.run rotation_sound halong).1

theorem tokenRun_append (before after : List TokenAction) :
    tokenRun signer w (before ++ after) =
      (tokenRun signer w before).run (tokenSystem signer) after :=
  Pool.run_append ..

variable {schedule}

/-- The commands of a run find their names new. -/
theorem unstored_of_command {a : TokenAction} {c : Command}
    (hc : (tokenRun signer w schedule).command? a = some c) :
    ∀ n, tokenNames.stores c n → ¬ tokenNames.stored (tokenRun signer w schedule).state n := by
  intro n hn
  obtain ⟨own, hown⟩ := tokenRun_separate signer w schedule
  exact hown.unstored_command hc hn

/-- The discipline under which every request is accepted and every state considered. -/
abbrev freeRotation :
    Pool.Discipline Command World Reply Error TokenExchangeResponse TokenRequest TokenEvent :=
  rotation (fun _ => True) (fun _ => True) signer

variable (schedule) in
theorem freeRotation_inv : (freeRotation signer).Inv (tokenRun signer w schedule) :=
  tokenRun_inv signer w schedule (fun _ _ => trivial) fun _ _ => trivial

theorem freeRotation_promise {a : TokenAction} {c : Command}
    (hc : (tokenRun signer w schedule).command? a = some c) :
    (freeRotation signer).promise c (tokenRun signer w schedule).state :=
  (freeRotation_inv signer w schedule).promise rotation_sound hc
    ⟨trivial, unstored_of_command signer w hc⟩

/-- From one state of a run to a later one the store evolves. -/
theorem tokenRun_evolves (before after : List TokenAction) :
    Evolves tokenScheme (tokenRun signer w before).state.db.tokenExchangeRefreshTokens
      (tokenRun signer w (before ++ after)).state.db.tokenExchangeRefreshTokens := by
  obtain ⟨own, hown⟩ := tokenRun_separate signer w before
  have halong := hown.along (tokenSystem_lawful signer) (fun _ => True) (fun _ => True) after
    (fun _ _ => trivial) fun _ _ => trivial
  have hmoves := ((freeRotation_inv signer w before).run rotation_sound halong).2
  rw [tokenRun_append]
  exact hmoves

/-! ## The protocol -/

end Runs

namespace Database

variable (db : Database)

def hasRefreshToken (id : String) : Prop := ∃ row ∈ db.tokenExchangeRefreshTokens, row.id = id

def hasAccessToken (id : String) : Prop := ∃ row ∈ db.tokenExchangeAccessTokens, row.id = id

end Database

section Protocol

variable [Platform] (signer : TokenExchangeJwtSigner) (w : World)

omit [Platform] in
theorem hasAccessToken_same {id : String} {c : Command} {s : World}
    (hleaves : c.leavesTokens = true) (h : s.db.hasAccessToken id) :
    (exec c s).db.hasAccessToken id := by
  obtain ⟨old, hold, hid⟩ := h
  exact ⟨old, (sameTokens_exec hleaves s).1 ▸ hold, hid⟩

/-- No command removes an access token. -/
theorem hasAccessToken_exec (id : String) (c : Command) (s : World)
    (h : s.db.hasAccessToken id) : (exec c s).db.hasAccessToken id := by
  cases c with
  | storeAccessToken row =>
    change (commit (Database.insertAccessToken row) s).db.hasAccessToken id
    unfold commit Statement.after
    split
    · rename_i u db hok
      obtain ⟨old, hold, hid⟩ := h
      rw [Database.insertAccessToken_ok hok]
      exact ⟨old, List.mem_append_left _ hold, hid⟩
    · exact h
  | rotateRefreshToken input now =>
    change (commit (Database.rotateRefreshToken input now) s).db.hasAccessToken id
    unfold commit Statement.after
    split
    · rename_i answer db hok
      obtain ⟨old, hold, hid⟩ := h
      exact ⟨old, Database.rotateRefreshToken_access hok old hold, hid⟩
    · exact h
  | insertRefreshToken row =>
    change (commit (Database.insertRefreshToken row) s).db.hasAccessToken id
    unfold commit Statement.after
    split
    · rename_i u db hok
      obtain ⟨-, -, rfl⟩ := Database.insertRefreshToken_ok hok
      exact h
    · exact h
  | access command => exact command.hasAccessToken_after s.db h
  | revokeRefreshToken id now => exact h
  | revokeRefreshTokenFamily familyId now => exact h
  | _ => exact hasAccessToken_same rfl h

theorem hasAccessToken_environment (id : String) (e : TokenEvent) (s : World)
    (h : s.db.hasAccessToken id) : ((tokenSystem signer).environment e s).db.hasAccessToken id := by
  cases e with
  | elapse milliseconds => exact h
  | configure db => exact h
  | withdraw credentialIds =>
    obtain ⟨old, hold, hid⟩ := h
    refine ⟨_, Table.mem_updateWhere.mpr ⟨old, hold, rfl⟩, ?_⟩
    split_ifs <;> exact hid

theorem hasAccessToken_later (before after : List TokenAction)
    {id : String} (h : (tokenRun signer w before).state.db.hasAccessToken id) :
    (tokenRun signer w (before ++ after)).state.db.hasAccessToken id := by
  rw [tokenRun_append]
  exact Pool.run_keeps (tokenSystem signer) (hasAccessToken_exec id)
    (hasAccessToken_environment signer id) _ after h

theorem hasRefreshToken_later (before after : List TokenAction)
    {id : String} (h : (tokenRun signer w before).state.db.hasRefreshToken id) :
    (tokenRun signer w (before ++ after)).state.db.hasRefreshToken id := by
  obtain ⟨row, hrow, hid⟩ := h
  obtain ⟨row', hrow', hcore, -⟩ := (tokenRun_evolves signer w before after).kept row hrow
  exact ⟨row', hrow', (core_eq hcore).id.trans hid⟩

variable {before : List TokenAction}
  {a : TokenAction}

theorem tokenRun_step {c : Command} (hc : (tokenRun signer w before).command? a = some c) :
    (tokenRun signer w (before ++ [a])).state = exec c (tokenRun signer w before).state := by
  rw [tokenRun_append]
  exact Pool.act_state (tokenSystem signer) hc

/-- A name that an executed command did not store is never stored. -/
theorem stored_once {c : Command} (hc : (tokenRun signer w before).command? a = some c)
    (after : List TokenAction) {n : String}
    (hn : tokenNames.stores c n)
    (hs : tokenNames.stored (tokenRun signer w (before ++ [a] ++ after)).state n) :
    tokenNames.stored (exec c (tokenRun signer w before).state) n := by
  obtain ⟨own, hown⟩ := tokenRun_separate signer w before
  rw [tokenRun_append, tokenRun_append] at hs
  have hstored := hown.stored_once (tokenSystem_lawful signer) hc hn after hs
  rwa [Pool.act_state (tokenSystem signer) hc] at hstored

/-- A rotation that has executed stored both tokens or neither, then and for ever. -/
theorem rotated_together {input : RotateRefreshTokenInput} {now : Time}
    (hc : (tokenRun signer w before).command? a = some (.rotateRefreshToken input now))
    (after : List TokenAction) :
    (tokenRun signer w (before ++ [a] ++ after)).state.db.hasRefreshToken input.refreshToken.id ↔
      (tokenRun signer w (before ++ [a] ++ after)).state.db.hasAccessToken input.accessToken.id := by
  have hinv := (freeRotation_inv signer w before).state
  have hunstored := unstored_of_command signer w hc
  have hstep := tokenRun_step signer w hc
  by_cases hok : ∃ db, Database.rotateRefreshToken input now (tokenRun signer w before).state.db =
      .ok (true, db)
  · -- Both tokens are stored, and neither is removed.
    obtain ⟨db, hok⟩ := hok
    obtain ⟨-, -, -, -, hchild, haccess⟩ := rotated_of_true hinv hunstored hok
    have hdb : (exec (Command.rotateRefreshToken input now)
        (tokenRun signer w before).state).db = db := Statement.after_of_ok hok
    have hchild' : (tokenRun signer w (before ++ [a])).state.db.hasRefreshToken
        input.refreshToken.id := by
      rw [hstep, hdb]
      exact ⟨_, hchild, rfl⟩
    have haccess' : (tokenRun signer w (before ++ [a])).state.db.hasAccessToken
        input.accessToken.id := by
      rw [hstep, hdb]
      exact ⟨_, haccess, rfl⟩
    constructor
    · exact fun _ => hasAccessToken_later signer w _ after haccess'
    · exact fun _ => hasRefreshToken_later signer w _ after hchild'
  · -- Nothing is stored, and the names are spent.
    have hsame : (exec (Command.rotateRefreshToken input now)
        (tokenRun signer w before).state).db = (tokenRun signer w before).state.db := by
      cases hanswer : Database.rotateRefreshToken input now
          (tokenRun signer w before).state.db with
      | error e => exact Statement.after_of_error hanswer
      | ok answer =>
        obtain ⟨stored, db⟩ := answer
        rcases Database.rotateRefreshToken_cases hinv.valid.keyed (ids_of_unstored hunstored)
          hanswer with ⟨-, hdb, -⟩ | ⟨hstored, -⟩
        · exact (Statement.after_of_ok hanswer).trans hdb
        · exact absurd ⟨db, hstored ▸ hanswer⟩ hok
    have hnever : ∀ n, tokenNames.stores (.rotateRefreshToken input now) n →
        ¬ tokenNames.stored (tokenRun signer w (before ++ [a] ++ after)).state n := by
      intro n hn hs
      have hstored := stored_once signer w hc after hn hs
      unfold tokenNames at hstored
      dsimp only at hstored
      rw [hsame] at hstored
      exact hunstored n hn hstored
    constructor
    · rintro ⟨row, hrow, hid⟩
      exact absurd (Or.inl ⟨row, hrow, Or.inl hid.symm⟩) (hnever _ (Or.inl rfl))
    · rintro ⟨row, hrow, hid⟩
      exact absurd (Or.inr ⟨row, hrow, hid.symm⟩) (hnever _ (Or.inr rfl))

/-- Once its family is revoked, a token is in a family that is dead for ever, and
that gets no new token. -/
theorem family_dead {familyId : String} {now : Time}
    (hc : (tokenRun signer w before).command? a = some (.revokeRefreshTokenFamily familyId now))
    (after : List TokenAction) :
    (∀ row ∈ (tokenRun signer w (before ++ [a] ++ after)).state.db.tokenExchangeRefreshTokens,
      row.familyId = familyId → row.revokedAt.isSome ∧
        ∃ old ∈ (tokenRun signer w (before ++ [a])).state.db.tokenExchangeRefreshTokens,
          row.core = old.core) := by
  obtain ⟨row, hrow, hfamily⟩ := freeRotation_promise signer w hc
  have hstep := tokenRun_step signer w hc
  have hrows : (tokenRun signer w (before ++ [a])).state.db.tokenExchangeRefreshTokens =
      Table.updateWhere (fun row => row.familyId = familyId && row.revokedAt.isNone) (·.revoke now)
        (tokenRun signer w before).state.db.tokenExchangeRefreshTokens := by
    rw [hstep]
    rfl
  have hthere : ∃ row ∈ (tokenRun signer w (before ++ [a])).state.db.tokenExchangeRefreshTokens,
      tokenScheme.familyOf row = familyId :=
    (tokenRun_evolves signer w before [a]).family ⟨row, hrow, hfamily⟩
  have hdead : Dead tokenScheme familyId
      (tokenRun signer w (before ++ [a])).state.db.tokenExchangeRefreshTokens := by
    rw [hrows]
    intro r hr hsame
    obtain ⟨old, hold, rfl⟩ := Table.mem_updateWhere.mp hr
    change Option.isSome _ = true
    by_cases hrevoked : old.revokedAt.isNone = true
    · have hfamily' : old.familyId = familyId := by
        rw [← hsame]
        split_ifs <;> rfl
      simp [hfamily', hrevoked, TokenExchangeRefreshToken.revoke]
    · rw [if_neg (by simp [hrevoked])]
      exact Option.isSome_iff_ne_none.mpr (by simpa using hrevoked)
  have hevolves := tokenRun_evolves signer w (before ++ [a]) after
  intro r hr hsame
  exact ⟨hevolves.dead familyId hthere hdead r hr hsame,
    hevolves.closed familyId hthere hdead r hr hsame⟩

/-- In every interleaving: a refresh token has at most one child; a family has at
most one token that is neither consumed nor revoked; the access token of a rotation
is stored if and only if its child is, before and after the rotation executes; and
once a family is revoked no rotation of it succeeds any more, so that every token
returned for a token of the family was stored before. -/
theorem refresh_rotation_protocol (schedule : List TokenAction) :
    let P := tokenRun signer w schedule
    let rows := P.state.db.tokenExchangeRefreshTokens
    (∀ x ∈ rows, ∀ y ∈ rows, x.parentId ≠ none → x.parentId = y.parentId → x = y) ∧
    (∀ x ∈ rows, ∀ y ∈ rows, x.familyId = y.familyId → x.isUnspent = true →
      y.isUnspent = true → x = y) ∧
    (∀ (a : TokenAction) input now, P.command? a = some (.rotateRefreshToken input now) →
      ¬ P.state.db.hasRefreshToken input.refreshToken.id ∧
        ¬ P.state.db.hasAccessToken input.accessToken.id) ∧
    ∀ before a after, schedule = before ++ [a] ++ after →
      let Q := tokenRun signer w before
      (∀ input now, Q.command? a = some (.rotateRefreshToken input now) →
        (P.state.db.hasRefreshToken input.refreshToken.id ↔
          P.state.db.hasAccessToken input.accessToken.id)) ∧
      ∀ familyId now, Q.command? a = some (.revokeRefreshTokenFamily familyId now) →
        (∀ (later : TokenAction) input at_, P.command? later = some (.rotateRefreshToken input at_) →
          input.refreshToken.familyId = familyId →
            ∀ db, Database.rotateRefreshToken input at_ P.state.db ≠ .ok (true, db)) ∧
        ∀ input credentials p response, (.refresh input credentials, p) ∈ P.procs →
          p.result? = some (.ok response) → ∀ presented ∈ rows,
            presented.tokenHash = Platform.hashProviderSecret input.refreshToken →
              presented.familyId = familyId →
                ∃ child ∈ (Q.act (tokenSystem signer) a).state.db.tokenExchangeRefreshTokens,
                  child.parentId = some presented.id ∧
                    response.refreshToken.map Platform.hashProviderSecret =
                      some child.tokenHash := by
  intro P rows
  have hinv := freeRotation_inv signer w schedule
  have htokens : ValidTokens (fun _ => True) (fun _ => True) rows := hinv.state
  refine ⟨?_, ?_, ?_, ?_⟩
  · intro x hx y hy hne hsame
    exact htokens.eq_of_id hx hy (htokens.valid.one_child x hx y hy hne hsame)
  · intro x hx y hy hfamily hunspent hunspent'
    apply htokens.eq_of_id hx hy
    exact htokens.valid.one_unspent x hx y hy hfamily (tokenScheme_not_spent.mpr hunspent)
      (tokenScheme_not_spent.mpr hunspent')
  · intro a input now hc
    have hunstored := unstored_of_command signer w hc
    constructor
    · rintro ⟨row, hrow, hid⟩
      exact hunstored _ (Or.inl rfl) (Or.inl ⟨row, hrow, Or.inl hid.symm⟩)
    · rintro ⟨row, hrow, hid⟩
      exact hunstored _ (Or.inr rfl) (Or.inr ⟨row, hrow, hid.symm⟩)
  · intro before a after hschedule Q
    subst hschedule
    refine ⟨fun input now hc => rotated_together signer w hc after, ?_⟩
    intro familyId now hc
    have hdead := family_dead signer w hc after
    constructor
    · intro later input at_ hlater hfamily db hok
      obtain ⟨parent, hparent, hreplaces⟩ := freeRotation_promise signer w hlater
      obtain ⟨active, hactive, hid, hunspent, -⟩ :=
        rotated_of_true hinv.state (unstored_of_command signer w hlater) hok
      have hsame : active = parent :=
        htokens.eq_of_id hactive hparent (Option.some.inj (hid.symm.trans hreplaces.parentId))
      subst hsame
      obtain ⟨hrevoked, -⟩ := hdead active hactive (hreplaces.familyId.symm.trans hfamily)
      simp only [TokenExchangeRefreshToken.isUnspent, Bool.and_eq_true,
        Option.isNone_iff_eq_none] at hunspent
      rw [hunspent.2] at hrevoked
      cases hrevoked
    · intro input credentials p response hp hresult presented hpresented hhash hfamily
      obtain ⟨presented', hpresented', hhash', child, hchild, hparent, hfamily', htoken⟩ :=
        hinv.finished hp hresult
      have hsame : presented' = presented :=
        htokens.eq_of_hash hpresented' hpresented (hhash'.trans hhash.symm)
      subst hsame
      obtain ⟨-, old, hold, hcore⟩ := hdead child hchild (hfamily'.trans hfamily)
      have hsame := core_eq hcore
      have hstep : (Q.act (tokenSystem signer) a).state = (tokenRun signer w (before ++ [a])).state := by
        rw [tokenRun_append]
        rfl
      rw [hstep]
      exact ⟨old, hold, by rw [← hsame.parentId, hparent], by rw [htoken, hsame.tokenHash]⟩

end Protocol
end Realmroot
