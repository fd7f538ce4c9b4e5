import Realmroot.Repos.SealedConnectors

/-!
# Sealed secrets of connectors

Any number of operations on connectors are in progress. What they answer is what they would
answer over connectors with open secrets, whatever is sealed meanwhile. A byte order mark at the
head of a secret is lost when the secret is sealed, and to seal a secret is an update of its row;
apart from these marks and times nothing is seen of it.
-/

namespace Realmroot

open AtomicProgram Program

/-! ## What is seen of a connector -/

/-- The text without the byte order marks at its head. -/
def unmarked (text : String) : String :=
  String.ofList (text.toList.dropWhile (· = Utf8.byteOrderMark))

/-- An empty secret is none. -/
def seenSecret (value : Option String) : Option String := truthy (value.map unmarked)

def IdentityProviderConnector.seen (connector : IdentityProviderConnector) :
    IdentityProviderConnector :=
  { connector with
    clientSecret := seenSecret connector.clientSecret
    resourceClientSecret := seenSecret connector.resourceClientSecret
    resourceRegistrationAccessToken := seenSecret connector.resourceRegistrationAccessToken
    updatedAt := 0 }

def ConnectorPatch.seen (patch : ConnectorPatch) : ConnectorPatch :=
  { patch with
    clientSecret := patch.clientSecret.map seenSecret
    resourceClientSecret := patch.resourceClientSecret.map seenSecret
    resourceRegistrationAccessToken := patch.resourceRegistrationAccessToken.map seenSecret
    updatedAt := 0 }

theorem unmarked_heard (text : String) : unmarked (SecretCipher.heard text) = unmarked text := by
  have hheard := SecretCipher.toList_heard text
  rw [unmarked, unmarked, hheard]
  cases hchars : text.toList with
  | nil => simp
  | cons c chars =>
    by_cases hc : c = Utf8.byteOrderMark
    · simp [hc]
    · simp [hc]

theorem seenSecret_heard (text : String) :
    seenSecret (some (SecretCipher.heard text)) = seenSecret (some text) := by
  rw [seenSecret, seenSecret, Option.map_some, Option.map_some, unmarked_heard]

@[simp] theorem seenSecret_none : seenSecret none = none := rfl

theorem truthy_some {text : String} (h : text ≠ "") : truthy (some text) = some text := by
  simp [truthy, h]

/-- A value without a secret has none that is seen. -/
theorem seenSecret_of_truthy_none {value : Option String} (h : truthy value = none) :
    seenSecret value = none := by
  cases value with
  | none => rfl
  | some text =>
    have htext : text = "" := by simpa [truthy] using h
    rw [htext]
    decide

/-! ## Reading rows -/

namespace SecretCipher

variable [AesGcm] (cipher : SecretCipher)

/-- The text of a stored secret. A legacy one may be there as it is. -/
def textOf (legacy : Bool) (value : Option String) (context : String) : Option String :=
  (truthy value).bind fun secret =>
    if legacy && !isSealed secret then some secret else (cipher.open secret context).toOption

/-- The secret is stored as it is, or opens. -/
def Readable (legacy : Bool) (value : Option String) (context : String) : Prop :=
  ∀ secret, truthy value = some secret →
    (legacy && !isSealed secret) = true ∨ ∃ text, cipher.open secret context = .ok text

/-- The connector of a row. -/
def reading (row : ConnectorRow) : ConnectorRow :=
  { row with
    clientSecret := cipher.textOf true row.clientSecret
      (row.clientSecretContext.getD (connectorSecretContext row.id))
    registrationAccessToken := cipher.textOf false row.registrationAccessToken
      (row.registrationAccessTokenContext.getD (connectorRegistrationTokenContext row.id))
    resourceClientSecret := cipher.textOf true row.resourceClientSecret
      (row.resourceClientSecretContext.getD (connectorResourceSecretContext row.id))
    resourceRegistrationAccessToken := cipher.textOf false row.resourceRegistrationAccessToken
      (row.resourceRegistrationAccessTokenContext.getD
        (connectorResourceRegistrationTokenContext row.id)) }

/-- Every secret of the row can be read. -/
structure Legible (row : ConnectorRow) : Prop where
  clientSecret : cipher.Readable true row.clientSecret
    (row.clientSecretContext.getD (connectorSecretContext row.id))
  registrationAccessToken : cipher.Readable false row.registrationAccessToken
    (row.registrationAccessTokenContext.getD (connectorRegistrationTokenContext row.id))
  resourceClientSecret : cipher.Readable true row.resourceClientSecret
    (row.resourceClientSecretContext.getD (connectorResourceSecretContext row.id))
  resourceRegistrationAccessToken : cipher.Readable false row.resourceRegistrationAccessToken
    (row.resourceRegistrationAccessTokenContext.getD
      (connectorResourceRegistrationTokenContext row.id))

/-- Every secret of the store can be read. -/
def LegibleStore (s : ConnectorStore) : Prop := ∀ row ∈ s.rows, cipher.Legible row

/-- The database with what is seen of the connectors of a store. -/
def view (db : Database) (s : ConnectorStore) : Database :=
  { db with
    identityProviderConnectors :=
      s.rows.map fun row => (cipher.reading row).toIdentityProviderConnector.seen }

variable {cipher} {legacy : Bool} {value : Option String} {context : String}

theorem readable_none : cipher.Readable legacy none context := by
  intro secret h
  cases h

theorem readable_of_truthy_none (h : truthy value = none) :
    cipher.Readable legacy value context := by
  intro secret hsecret
  rw [h] at hsecret
  cases hsecret

theorem textOf_of_truthy_none (h : truthy value = none) :
    cipher.textOf legacy value context = none := by
  rw [textOf, h, Option.bind_none]

omit [AesGcm] in
theorem ne_empty_of_isSealed {secret : String} (h : isSealed secret = true) : secret ≠ "" := by
  rintro rfl
  revert h
  decide

theorem readable_seal {iv : List UInt8} (hiv : iv ≠ []) (plaintext : String) :
    cipher.Readable legacy (some (cipher.seal iv plaintext context)) context := by
  intro secret hsecret
  obtain ⟨hvalue, -⟩ := truthy_eq_some hsecret
  cases hvalue
  exact Or.inr ⟨_, open_seal iv hiv plaintext⟩

theorem textOf_seal {iv : List UInt8} (hiv : iv ≠ []) (plaintext : String) :
    cipher.textOf legacy (some (cipher.seal iv plaintext context)) context =
      some (heard plaintext) := by
  have hsealed : isSealed (cipher.seal iv plaintext context) = true := isSealed_seal _ _ _
  rw [textOf, truthy_some (ne_empty_of_isSealed hsealed), Option.bind_some, hsealed,
    open_seal iv hiv plaintext]
  simp [Except.toOption]

/-! ## Sealing what is stored -/

/-- A secret of an update, and what is stored for it. -/
inductive SealsUpdate (cipher : SecretCipher) (context : String) :
    Option (Option String) → Option (Option String) × Option String → Prop
  | kept : SealsUpdate cipher context none (none, none)
  | cleared : SealsUpdate cipher context (some none) (some none, none)
  | set (secret : String) (iv : List UInt8) (hiv : iv ≠ []) :
    SealsUpdate cipher context (some (some secret))
      (some (some (cipher.seal iv secret context)), some context)

/-- A secret of a new row, and what is stored for it. -/
inductive SealsNew (cipher : SecretCipher) (context : String) :
    Option String → Option String × Option String → Prop
  | absent (value : Option String) (h : truthy value = none) :
    SealsNew cipher context value (value, none)
  | present (secret : String) (iv : List UInt8) (hiv : iv ≠ []) :
    SealsNew cipher context (some secret)
      (some (cipher.seal iv secret context), some context)

variable {stored fallback : Option String} {default : String}

theorem SealsUpdate.seen {update : Option (Option String)}
    {out : Option (Option String) × Option String} (h : SealsUpdate cipher context update out) :
    seenSecret (cipher.textOf legacy (out.1.getD stored) ((out.2 <|> fallback).getD default)) =
      (update.map seenSecret).getD
        (seenSecret (cipher.textOf legacy stored (fallback.getD default))) := by
  cases h with
  | kept => rfl
  | cleared => rfl
  | set secret iv hiv =>
    exact (congrArg seenSecret (textOf_seal hiv secret)).trans (seenSecret_heard secret)

theorem SealsUpdate.readable {update : Option (Option String)}
    {out : Option (Option String) × Option String} (h : SealsUpdate cipher context update out)
    (hstored : cipher.Readable legacy stored (fallback.getD default)) :
    cipher.Readable legacy (out.1.getD stored) ((out.2 <|> fallback).getD default) := by
  cases h with
  | kept => exact hstored
  | cleared => exact readable_none
  | set secret iv hiv => exact readable_seal hiv secret

theorem SealsNew.seen {out : Option String × Option String}
    (h : SealsNew cipher context value out) :
    seenSecret (cipher.textOf legacy out.1 (out.2.getD default)) = seenSecret value := by
  cases h with
  | absent value h => rw [textOf_of_truthy_none h, seenSecret_of_truthy_none h, seenSecret_none]
  | present secret iv hiv =>
    exact (congrArg seenSecret (textOf_seal hiv secret)).trans (seenSecret_heard secret)

theorem SealsNew.readable {out : Option String × Option String}
    (h : SealsNew cipher context value out) :
    cipher.Readable legacy out.1 (out.2.getD default) := by
  cases h with
  | absent value h => exact readable_of_truthy_none h
  | present secret iv hiv => exact readable_seal hiv secret

/-- An update with its secrets sealed. -/
structure Seals (cipher : SecretCipher) (input : ConnectorRecordInput) (patch : SealedPatch) :
    Prop where
  columns : patch.toConnectorPatch = { input.toConnectorPatch with
    clientSecret := patch.clientSecret
    resourceClientSecret := patch.resourceClientSecret
    resourceRegistrationAccessToken := patch.resourceRegistrationAccessToken }
  clientSecret : ∃ context, SealsUpdate cipher context input.clientSecret
    (patch.clientSecret, patch.clientSecretContext)
  registrationAccessToken : ∃ context, SealsUpdate cipher context input.registrationAccessToken
    (patch.registrationAccessToken, patch.registrationAccessTokenContext)
  resourceClientSecret : ∃ context, SealsUpdate cipher context input.resourceClientSecret
    (patch.resourceClientSecret, patch.resourceClientSecretContext)
  resourceRegistrationAccessToken :
    ∃ context, SealsUpdate cipher context input.resourceRegistrationAccessToken
      (patch.resourceRegistrationAccessToken, patch.resourceRegistrationAccessTokenContext)

section Seals

variable {input : ConnectorRecordInput} {patch : SealedPatch} {row : ConnectorRow}

theorem Seals.seen (h : Seals cipher input patch) :
    (cipher.reading (patch.apply row)).toIdentityProviderConnector.seen =
      input.toConnectorPatch.seen.apply (cipher.reading row).toIdentityProviderConnector.seen := by
  obtain ⟨hcolumns, ⟨_, hclient⟩, -, ⟨_, hresource⟩, ⟨_, htoken⟩⟩ := h
  have hclientSeen :
      seenSecret (cipher.textOf true (patch.clientSecret.getD row.clientSecret)
          ((patch.clientSecretContext <|> row.clientSecretContext).getD
            (connectorSecretContext row.id))) =
        (input.clientSecret.map seenSecret).getD
          (seenSecret (cipher.reading row).clientSecret) := hclient.seen
  have hresourceSeen :
      seenSecret (cipher.textOf true (patch.resourceClientSecret.getD row.resourceClientSecret)
          ((patch.resourceClientSecretContext <|> row.resourceClientSecretContext).getD
            (connectorResourceSecretContext row.id))) =
        (input.resourceClientSecret.map seenSecret).getD
          (seenSecret (cipher.reading row).resourceClientSecret) := hresource.seen
  have htokenSeen :
      seenSecret (cipher.textOf false
          (patch.resourceRegistrationAccessToken.getD row.resourceRegistrationAccessToken)
          ((patch.resourceRegistrationAccessTokenContext <|>
            row.resourceRegistrationAccessTokenContext).getD
              (connectorResourceRegistrationTokenContext row.id))) =
        (input.resourceRegistrationAccessToken.map seenSecret).getD
          (seenSecret (cipher.reading row).resourceRegistrationAccessToken) := htoken.seen
  simp only [reading, SealedPatch.apply, ConnectorPatch.apply, IdentityProviderConnector.seen,
    ConnectorPatch.seen] at hclientSeen hresourceSeen htokenSeen ⊢
  rw [hclientSeen, hresourceSeen, htokenSeen, hcolumns]

theorem Seals.legible (h : Seals cipher input patch) (hrow : cipher.Legible row) :
    cipher.Legible (patch.apply row) where
  clientSecret := h.clientSecret.choose_spec.readable hrow.clientSecret
  registrationAccessToken :=
    h.registrationAccessToken.choose_spec.readable hrow.registrationAccessToken
  resourceClientSecret := h.resourceClientSecret.choose_spec.readable hrow.resourceClientSecret
  resourceRegistrationAccessToken :=
    h.resourceRegistrationAccessToken.choose_spec.readable hrow.resourceRegistrationAccessToken

end Seals

/-! ## Sealing what was read -/

section Reseal

variable {row : ConnectorRow} {secret : String} {column : SecretColumn} {iv : List UInt8}
  {now : Time}

theorem set_seen (hiv : iv ≠ []) (hvalue : column.value row = some secret) (hne : secret ≠ "")
    (hplain : isSealed secret = false) :
    (cipher.reading (column.set (cipher.seal iv secret context) context now row)).seen =
      (cipher.reading row).seen := by
  have htext : cipher.textOf true (some secret) = fun _ => some secret := by
    funext context
    simp [textOf, truthy_some hne, hplain]
  have hsealed : cipher.textOf true (some (cipher.seal iv secret context)) context =
      some (heard secret) := textOf_seal hiv secret
  cases column with
  | clientSecret =>
    rw [SecretColumn.value] at hvalue
    simp only [reading, SecretColumn.set, IdentityProviderConnector.seen, hvalue, htext,
      Option.getD_some, hsealed, seenSecret_heard]
  | resourceClientSecret =>
    rw [SecretColumn.value] at hvalue
    simp only [reading, SecretColumn.set, IdentityProviderConnector.seen, hvalue, htext,
      Option.getD_some, hsealed, seenSecret_heard]

theorem set_legible (hiv : iv ≠ []) (h : cipher.Legible row) :
    cipher.Legible (column.set (cipher.seal iv secret context) context now row) := by
  cases column with
  | clientSecret => exact { h with clientSecret := readable_seal hiv secret }
  | resourceClientSecret => exact { h with resourceClientSecret := readable_seal hiv secret }

end Reseal

/-! ## Statements -/

section Statements

variable {db : Database} {s : ConnectorStore}

theorem legible_filter (hs : cipher.LegibleStore s) (selects : ConnectorRow → Bool) :
    ∀ row ∈ s.rows.filter selects, cipher.Legible row :=
  fun row hrow => hs row (List.mem_of_mem_filter hrow)

theorem legible_updateWhere {selects : ConnectorRow → Bool} {f : ConnectorRow → ConnectorRow}
    (hs : cipher.LegibleStore s)
    (hf : ∀ row, selects row = true → cipher.Legible row → cipher.Legible (f row)) :
    cipher.LegibleStore { s with rows := Table.updateWhere selects f s.rows } := by
  intro row hrow
  obtain ⟨old, hold, rfl⟩ := Table.mem_updateWhere.mp hrow
  by_cases hselects : selects old = true
  · rw [if_pos hselects]
    exact hf old hselects (hs old hold)
  · rw [if_neg hselects]
    exact hs old hold

/-- What is seen of a row. -/
def sees (cipher : SecretCipher) (row : ConnectorRow) : IdentityProviderConnector :=
  (cipher.reading row).toIdentityProviderConnector.seen

/-- Rows are selected as what is seen of them is. -/
theorem map_filter_sees {rows : List ConnectorRow} {p : ConnectorRow → Bool}
    {q : IdentityProviderConnector → Bool} (h : ∀ row, p row = q (cipher.sees row)) :
    (rows.filter p).map cipher.sees = (rows.map cipher.sees).filter q := by
  have hp : p = q ∘ cipher.sees := funext h
  rw [List.filter_map, hp]

/-- Rows are updated as what is seen of them is. -/
theorem map_updateWhere_sees {rows : List ConnectorRow} {p : ConnectorRow → Bool}
    {q : IdentityProviderConnector → Bool} {f : ConnectorRow → ConnectorRow}
    {g : IdentityProviderConnector → IdentityProviderConnector}
    (h : ∀ row, p row = q (cipher.sees row))
    (hf : ∀ row, p row = true → cipher.sees (f row) = g (cipher.sees row)) :
    (Table.updateWhere p f rows).map cipher.sees =
      Table.updateWhere q g (rows.map cipher.sees) := by
  rw [Table.updateWhere, Table.updateWhere, List.map_map, List.map_map]
  apply List.map_congr_left
  intro row _
  simp only [Function.comp_apply, ← h row]
  by_cases hp : p row = true
  · simp [hp, hf row hp]
  · simp [hp]

/-- To seal a secret that was read keeps what is seen of every connector. -/
theorem sealSecret_unseen (hs : cipher.LegibleStore s) {column : SecretColumn} {id secret : String}
    {iv : List UInt8} (hiv : iv ≠ []) (hne : secret ≠ "") (hplain : isSealed secret = false) :
    cipher.LegibleStore
        (exec (ConnectorStatement.sealSecret column id secret
          (cipher.seal iv secret context) context) s) ∧
      cipher.view db (exec (ConnectorStatement.sealSecret column id secret
          (cipher.seal iv secret context) context) s) = cipher.view db s := by
  constructor
  · exact legible_updateWhere hs fun row _ hrow => set_legible hiv hrow
  · have hrows : ∀ row, (row.id = id && column.value row = some secret) = true →
        cipher.sees (column.set (cipher.seal iv secret context) context s.clock row) =
          cipher.sees row := by
      intro row hrow
      simp only [Bool.and_eq_true, decide_eq_true_eq] at hrow
      exact set_seen hiv hrow.2 hne hplain
    have hmap : (Table.updateWhere (fun row => row.id = id && column.value row = some secret)
        (column.set (cipher.seal iv secret context) context s.clock) s.rows).map cipher.sees =
          s.rows.map cipher.sees := by
      rw [Table.updateWhere, List.map_map]
      apply List.map_congr_left
      intro row _
      by_cases hrow : (row.id = id && column.value row = some secret) = true
      · simp only [Function.comp_apply, hrow, if_true, hrows row hrow]
      · simp only [Function.comp_apply, hrow, Bool.false_eq_true, if_false]
    exact congrArg (fun rows => { db with identityProviderConnectors := rows }) hmap

end Statements

/-! ## Programs -/

section Programs

variable {db : Database} {α : Type} {row : ConnectorRow}

/-- Nothing is seen of the program, which returns a value with the property. -/
def Returns (cipher : SecretCipher) (db : Database) (Q : α → Prop) (p : ConnectorProgram α) :
    Prop :=
  p.Unseen cipher.LegibleStore (cipher.view db) fun result => ∃ a, result = .ok a ∧ Q a

theorem Returns.bind {β : Type} {Q : α → Prop} {Q' : β → Prop} {p : ConnectorProgram α}
    {f : α → ConnectorProgram β} (h : cipher.Returns db Q p)
    (hf : ∀ a, Q a → cipher.Returns db Q' (f a)) : cipher.Returns db Q' (p.bind f) := by
  apply Unseen.bind h
  · rintro a ⟨_, ha, hQ⟩
    cases ha
    exact hf a hQ
  · rintro e ⟨_, he, -⟩
    cases he

theorem Returns.imp {Q Q' : α → Prop} {p : ConnectorProgram α} (h : cipher.Returns db Q p)
    (hQ : ∀ a, Q a → Q' a) : cipher.Returns db Q' p := by
  apply h.mono
  rintro _ ⟨a, rfl, ha⟩
  exact ⟨a, rfl, hQ a ha⟩

theorem returns_pure {Q : α → Prop} {a : α} (h : Q a) : cipher.Returns db Q (.pure a) :=
  ⟨a, rfl, h⟩

theorem returns_sealed (plaintext context : String) :
    cipher.Returns db (fun out => ∃ iv, iv ≠ [] ∧ out = cipher.seal iv plaintext context)
      (cipher.sealed plaintext context) := by
  intro iv
  apply returns_pure
  refine ⟨iv.1, ?_, rfl⟩
  intro hnil
  have hlength := iv.2
  rw [hnil] at hlength
  cases hlength

theorem returns_sealUpdate (update : Option (Option String)) (context : String) :
    cipher.Returns db (SealsUpdate cipher context update) (cipher.sealUpdate update context) := by
  cases update with
  | none => exact returns_pure .kept
  | some value =>
    cases value with
    | none => exact returns_pure .cleared
    | some secret =>
      apply (returns_sealed secret context).bind
      rintro _ ⟨iv, hiv, rfl⟩
      exact returns_pure (.set secret iv hiv)

theorem returns_sealNew (value : Option String) (context : String) :
    cipher.Returns db (SealsNew cipher context value) (cipher.sealNew value context) := by
  unfold sealNew
  cases htruthy : truthy value with
  | none => exact returns_pure (.absent value htruthy)
  | some secret =>
    obtain ⟨rfl, -⟩ := truthy_eq_some htruthy
    apply (returns_sealed secret context).bind
    rintro _ ⟨iv, hiv, rfl⟩
    exact returns_pure (.present secret iv hiv)

theorem returns_opened {value context text : String}
    (h : cipher.open value context = .ok text) :
    cipher.Returns db (· = text) (cipher.opened value context) := by
  unfold opened
  rw [h]
  exact returns_pure rfl

theorem returns_openToken {value : Option String} {context : String}
    (h : cipher.Readable false value context) :
    cipher.Returns db (· = cipher.textOf false value context) (cipher.openToken value context) := by
  unfold openToken textOf
  cases htruthy : truthy value with
  | none => exact returns_pure rfl
  | some token =>
    rcases h token htruthy with hplain | ⟨text, htext⟩
    · simp at hplain
    · apply (returns_opened htext).bind
      rintro _ rfl
      apply returns_pure
      simp [htext, Except.toOption]

theorem returns_readSecret (column : SecretColumn)
    (h : cipher.Readable true (column.value row) (column.context row)) :
    cipher.Returns db (· = cipher.textOf true (column.value row) (column.context row))
      (cipher.readSecret column row) := by
  unfold readSecret textOf
  cases htruthy : truthy (column.value row) with
  | none => exact returns_pure rfl
  | some secret =>
    have hne : secret ≠ "" := (truthy_eq_some htruthy).2
    simp only [Option.bind_some, Bool.true_and]
    cases hsealed : isSealed secret with
    | true =>
      rcases h secret htruthy with hplain | ⟨text, htext⟩
      · simp [hsealed] at hplain
      · apply (returns_opened htext).bind
        rintro _ rfl
        apply returns_pure
        simp [htext, Except.toOption]
    | false =>
      apply (returns_sealed secret (column.context row)).bind
      rintro _ ⟨iv, hiv, rfl⟩
      intro s hs
      obtain ⟨hlegible, hview⟩ := sealSecret_unseen hs hiv hne hsealed
      exact ⟨hlegible, hview, returns_pure (by simp)⟩

theorem returns_decryptConnector (h : cipher.Legible row) :
    cipher.Returns db (· = cipher.reading row) (cipher.decryptConnector row) := by
  unfold decryptConnector
  apply (returns_readSecret .clientSecret h.clientSecret).bind
  rintro _ rfl
  apply (returns_readSecret .resourceClientSecret h.resourceClientSecret).bind
  rintro _ rfl
  apply (returns_openToken h.registrationAccessToken).bind
  rintro _ rfl
  apply (returns_openToken h.resourceRegistrationAccessToken).bind
  rintro _ rfl
  exact returns_pure rfl

/-- The connector of a row, as it is read for authentication. -/
def readingForAuthentication (cipher : SecretCipher) (row : ConnectorRow) : ConnectorRow :=
  { row with
    clientSecret := (cipher.reading row).clientSecret
    registrationAccessToken := none
    resourceClientSecret := none
    resourceRegistrationAccessToken := none }

theorem returns_decryptForAuthentication (h : cipher.Legible row) :
    cipher.Returns db (· = cipher.readingForAuthentication row)
      (cipher.decryptForAuthentication row) := by
  unfold decryptForAuthentication
  apply (returns_readSecret .clientSecret h.clientSecret).bind
  rintro _ rfl
  exact returns_pure rfl

theorem returns_decryptFirst {rows : List ConnectorRow} (h : ∀ row ∈ rows, cipher.Legible row) :
    cipher.Returns db (· = rows.head?.map cipher.reading) (cipher.decryptFirst rows) := by
  unfold decryptFirst
  cases rows with
  | nil => exact returns_pure rfl
  | cons row rows =>
    apply (returns_decryptConnector (h row List.mem_cons_self)).bind
    rintro _ rfl
    exact returns_pure rfl

theorem returns_mapEach {f : ConnectorRow → ConnectorProgram ConnectorRow}
    {g : ConnectorRow → ConnectorRow} {rows : List ConnectorRow}
    (h : ∀ row ∈ rows, cipher.Returns db (· = g row) (f row)) :
    cipher.Returns db (· = rows.map g) (Program.mapEach rows f) := by
  have heach : (Program.mapEach rows f).Unseen cipher.LegibleStore (cipher.view db)
      fun result => result = .ok (rows.map g) := by
    apply Unseen.mapEach
    intro row hrow
    apply (h row hrow).mono
    rintro result ⟨a, rfl, rfl⟩
    rfl
  apply heach.mono
  rintro result rfl
  exact ⟨_, rfl, rfl⟩

end Programs

end SecretCipher

/-! ## The systems -/

inductive ConnectorRequest where
  | listEnabled
  | listEnabledForAuthentication
  | findById (id : String)
  | findByProviderId (providerId : String)
  | create (input : ConnectorRow)
  | update (id : String) (input : ConnectorRecordInput)
  | rotateResourceClientGeneration (id : String) (expectedGeneration : ℕ)
    (input : ResourceClientInput)
  | delete (id : String)

inductive ConnectorEvent where
  | elapse (milliseconds : ℕ)

/-- The repository over sealed secrets. -/
def sealedConnectors [AesGcm] (cipher : SecretCipher) :
    System ConnectorStatement ConnectorStore InitializationVector Error (List ConnectorRow)
      ConnectorRequest ConnectorEvent where
  program
    | .listEnabled => cipher.listEnabled
    | .listEnabledForAuthentication => cipher.listEnabledForAuthentication
    | .findById id => (cipher.findById id).bind fun row => .pure row.toList
    | .findByProviderId providerId =>
      (cipher.findByProviderId providerId).bind fun row => .pure row.toList
    | .create input => (cipher.create input).bind fun row => .pure [row]
    | .update id input => (cipher.update id input).bind fun row => .pure row.toList
    | .rotateResourceClientGeneration id expectedGeneration input =>
      (cipher.rotateResourceClientGeneration id expectedGeneration input).bind fun row =>
        .pure row.toList
    | .delete id => (deleteConnectorRow id).bind fun _ => .pure []
  environment
    | .elapse milliseconds, s => { s with clock := s.clock + milliseconds }

inductive OpenStatement where
  | select
  | insert (row : IdentityProviderConnector)
  | connector (command : ConnectorCommand)
  | delete (id : String)

instance : Executes OpenStatement Database where
  exec
    | .select, db => db
    | .insert row, db =>
      if row.conflicts db.identityProviderConnectors then db
      else { db with identityProviderConnectors := db.identityProviderConnectors ++ [row] }
    | .connector command, db => command.after db
    | .delete id, db =>
      { db with
        identityProviderConnectors := db.identityProviderConnectors.filter fun row => row.id ≠ id }

abbrev OpenProgram :=
  Program OpenStatement Database InitializationVector Error (List IdentityProviderConnector)

/-- One statement, with what is read of the connectors before it. -/
def openStatement (statement : OpenStatement)
    (read : List IdentityProviderConnector → List IdentityProviderConnector) : OpenProgram :=
  .call statement fun db => .pure (read db.identityProviderConnectors)

/-- The connector without the secrets that are not for authentication. -/
def IdentityProviderConnector.forAuthentication (connector : IdentityProviderConnector) :
    IdentityProviderConnector :=
  { connector with resourceClientSecret := none, resourceRegistrationAccessToken := none }

/-- The repository over open secrets: every operation is one statement. -/
def openConnectors :
    System OpenStatement Database InitializationVector Error (List IdentityProviderConnector)
      ConnectorRequest ConnectorEvent where
  program
    | .listEnabled => openStatement .select fun rows => rows.filter (·.enabled)
    | .listEnabledForAuthentication => openStatement .select fun rows =>
      (rows.filter fun row => row.enabled && row.authenticationEnabled).map (·.forAuthentication)
    | .findById id => openStatement .select fun rows => (rows.find? (·.id = id)).toList
    | .findByProviderId providerId => openStatement .select fun rows =>
      (rows.find? (·.providerId = providerId)).toList
    | .create input =>
      let row := input.toIdentityProviderConnector.seen
      .call (.insert row) fun db =>
        if row.conflicts db.identityProviderConnectors then
          .throw (.constraint "identity_provider_connector")
        else .pure [row]
    | .update id input =>
      let patch := input.toConnectorPatch.seen
      openStatement (.connector (.update id patch)) fun rows =>
        ((rows.find? (·.id = id)).map patch.apply).toList
    | .rotateResourceClientGeneration id expectedGeneration input =>
      let patch := input.toConnectorPatch.seen
      openStatement (.connector (.rotate id expectedGeneration patch)) fun rows =>
        ((rows.find? fun row =>
          row.id = id && row.resourceClientGeneration = expectedGeneration).map patch.apply).toList
    | .delete id => openStatement (.delete id) fun _ => []
  environment
    | .elapse _, db => db

abbrev ConnectorAction := Action InitializationVector ConnectorRequest ConnectorEvent

/-- The repository over sealed secrets after a schedule. -/
def sealedRun [AesGcm] (cipher : SecretCipher) (store : ConnectorStore)
    (schedule : List ConnectorAction) :
    Pool ConnectorStatement ConnectorStore InitializationVector Error (List ConnectorRow)
      ConnectorRequest :=
  (Pool.idle store).run (sealedConnectors cipher) schedule

/-- The repository over open secrets after a schedule. -/
def openRun (db : Database) (schedule : List ConnectorAction) :
    Pool OpenStatement Database InitializationVector Error (List IdentityProviderConnector)
      ConnectorRequest :=
  (Pool.idle db).run openConnectors schedule

/-- What is seen of a result. -/
def seenResult (result : Except Error (List ConnectorRow)) :
    Except Error (List IdentityProviderConnector) :=
  result.map (List.map fun row => row.toIdentityProviderConnector.seen)

namespace SecretCipher

variable [AesGcm] {cipher : SecretCipher} {db : Database}

/-- The programs of a request over sealed and over open secrets. -/
def Agrees (cipher : SecretCipher) (db : Database) (p : ConnectorProgram (List ConnectorRow))
    (q : OpenProgram) : Prop :=
  p.Simulates cipher.LegibleStore (cipher.view db) (fun result answer => answer = seenResult result)
    q

variable {α : Type} {Q : α → Prop} {q : OpenProgram}

theorem Returns.agrees {p : ConnectorProgram α} {f : α → ConnectorProgram (List ConnectorRow)}
    (h : cipher.Returns db Q p) (hf : ∀ a, Q a → cipher.Agrees db (f a) q) :
    cipher.Agrees db (p.bind f) q := by
  apply Unseen.simulates h
  · rintro a ⟨_, ha, hQ⟩
    cases ha
    exact hf a hQ
  · rintro e ⟨_, he, -⟩
    cases he

/-- A statement agrees with a statement over open secrets, when it does what that one does and
what follows it is unseen. -/
theorem agrees_statement {statement : ConnectorStatement}
    {next : ConnectorStore → ConnectorProgram (List ConnectorRow)} {seen : OpenStatement}
    {read : List IdentityProviderConnector → List IdentityProviderConnector}
    (h : ∀ s, cipher.LegibleStore s →
      cipher.LegibleStore (exec statement s) ∧
        cipher.view db (exec statement s) = exec seen (cipher.view db s) ∧
          cipher.Returns db
            (fun rows => rows.map (fun row => row.toIdentityProviderConnector.seen) =
              read (s.rows.map cipher.sees)) (next s)) :
    cipher.Agrees db (.call statement next) (openStatement seen read) := by
  refine Or.inr ⟨seen, _, rfl, ?_⟩
  intro s hs
  obtain ⟨hlegible, hview, hnext⟩ := h s hs
  refine ⟨hlegible, hview, ?_⟩
  apply Unseen.simulates_result rfl
  apply hnext.mono
  rintro _ ⟨rows, rfl, hrows⟩
  exact congrArg Except.ok hrows.symm

/-- What is seen of the connector that is read of the first row that a query selects. -/
theorem first_sees {rows : List ConnectorRow} {p : ConnectorRow → Bool}
    {q : IdentityProviderConnector → Bool} (h : ∀ row, p row = q (cipher.sees row)) :
    (((rows.filter p).head?.map cipher.reading).toList.map
        fun row => row.toIdentityProviderConnector.seen) =
      ((rows.map cipher.sees).find? q).toList := by
  have hp : p = q ∘ cipher.sees := funext h
  rw [List.head?_filter, List.find?_map, hp]
  cases rows.find? (q ∘ cipher.sees) with
  | none => rfl
  | some row => rfl

theorem agrees_listEnabled :
    cipher.Agrees db cipher.listEnabled (openConnectors.program .listEnabled) := by
  apply agrees_statement
  intro s hs
  refine ⟨hs, rfl, ?_⟩
  have hrows : cipher.Returns db (· = (s.rows.filter (·.enabled)).map cipher.reading)
      (Program.mapEach (s.rows.filter (·.enabled)) cipher.decryptConnector) :=
    returns_mapEach fun row hrow => returns_decryptConnector (legible_filter hs _ row hrow)
  apply hrows.imp
  rintro _ rfl
  rw [List.map_map]
  exact map_filter_sees fun row => rfl

theorem agrees_listEnabledForAuthentication :
    cipher.Agrees db cipher.listEnabledForAuthentication
      (openConnectors.program .listEnabledForAuthentication) := by
  change cipher.Agrees db (.call .select fun s => Program.mapEach
      (s.rows.filter fun row => row.enabled && row.authenticationEnabled)
        cipher.decryptForAuthentication)
    (openStatement .select fun rows =>
      (rows.filter fun row => row.enabled && row.authenticationEnabled).map (·.forAuthentication))
  apply agrees_statement
  intro s hs
  refine ⟨hs, rfl, ?_⟩
  have hrows : cipher.Returns db
      (· = (s.rows.filter fun row => row.enabled && row.authenticationEnabled).map
        cipher.readingForAuthentication)
      (Program.mapEach (s.rows.filter fun row => row.enabled && row.authenticationEnabled)
        cipher.decryptForAuthentication) :=
    returns_mapEach fun row hrow =>
      returns_decryptForAuthentication (legible_filter hs _ row hrow)
  apply hrows.imp
  rintro _ rfl
  have hrow : (fun row : ConnectorRow => row.toIdentityProviderConnector.seen) ∘
      cipher.readingForAuthentication =
        IdentityProviderConnector.forAuthentication ∘ cipher.sees := rfl
  rw [List.map_map, hrow, ← List.map_map]
  exact congrArg (List.map _) (map_filter_sees fun row => rfl)

theorem agrees_select {p : ConnectorRow → Bool} {q : IdentityProviderConnector → Bool}
    (h : ∀ row, p row = q (cipher.sees row)) :
    cipher.Agrees db
      (((selectRows p).bind cipher.decryptFirst).bind fun row => .pure row.toList)
      (openStatement .select fun rows => (rows.find? q).toList) := by
  apply agrees_statement
  intro s hs
  refine ⟨hs, rfl, ?_⟩
  apply (returns_decryptFirst (legible_filter hs p)).bind
  rintro _ rfl
  exact returns_pure (first_sees h)

/-! ### Updates -/

section Updates

variable (input : ConnectorRecordInput) {patch : SealedPatch} {p : ConnectorRow → Bool}
  {q : IdentityProviderConnector → Bool}

/-- What is seen of the connector that an update returns. -/
theorem updated_sees {rows : List ConnectorRow} (hseals : Seals cipher input patch)
    (h : ∀ row, p row = q (cipher.sees row)) :
    ((((rows.filter p).map patch.apply).head?.map cipher.reading).toList.map
        fun row => row.toIdentityProviderConnector.seen) =
      (((rows.map cipher.sees).find? q).map input.toConnectorPatch.seen.apply).toList := by
  have hp : p = q ∘ cipher.sees := funext h
  rw [List.head?_map, List.head?_filter, List.find?_map, hp]
  cases rows.find? (q ∘ cipher.sees) with
  | none => rfl
  | some row => exact congrArg (fun connector => [connector]) hseals.seen

/-- A guarded update with sealed secrets. -/
theorem agrees_updateWhere {statement : ConnectorStatement} {seen : OpenStatement}
    (hseals : Seals cipher input patch) (h : ∀ row, p row = q (cipher.sees row))
    (hstatement : ∀ s : ConnectorStore,
      exec statement s = { s with rows := Table.updateWhere p patch.apply s.rows })
    (hseen : ∀ db : Database, exec seen db = { db with
      identityProviderConnectors :=
        Table.updateWhere q input.toConnectorPatch.seen.apply db.identityProviderConnectors }) :
    cipher.Agrees db
      (.call statement fun s =>
        (cipher.decryptFirst ((s.rows.filter p).map patch.apply)).bind fun row => .pure row.toList)
      (openStatement seen fun rows =>
        ((rows.find? q).map input.toConnectorPatch.seen.apply).toList) := by
  apply agrees_statement
  intro s hs
  rw [hstatement, hseen]
  refine ⟨?_, ?_, ?_⟩
  · exact legible_updateWhere hs fun row _ hrow => hseals.legible hrow
  · have hrows : (Table.updateWhere p patch.apply s.rows).map cipher.sees =
        Table.updateWhere q input.toConnectorPatch.seen.apply (s.rows.map cipher.sees) :=
      map_updateWhere_sees h fun row _ => hseals.seen
    exact congrArg (fun rows => { db with identityProviderConnectors := rows }) hrows
  · have hlegible : ∀ row ∈ (s.rows.filter p).map patch.apply, cipher.Legible row := by
      intro row hrow
      obtain ⟨old, hold, rfl⟩ := List.mem_map.mp hrow
      exact hseals.legible (legible_filter hs p old hold)
    apply (returns_decryptFirst hlegible).bind
    rintro _ rfl
    exact returns_pure (updated_sees input hseals h)

theorem agrees_update (id : String) (input : ConnectorRecordInput) :
    cipher.Agrees db ((cipher.update id input).bind fun row => .pure row.toList)
      (openConnectors.program (.update id input)) := by
  simp only [SecretCipher.update, bind_eq, Program.bind_assoc]
  apply (returns_sealUpdate input.clientSecret (connectorSecretContext id)).agrees
  intro clientSecret hclient
  apply (returns_sealUpdate input.registrationAccessToken
    (connectorRegistrationTokenContext id)).agrees
  intro registrationAccessToken hregistration
  apply (returns_sealUpdate input.resourceClientSecret (connectorResourceSecretContext id)).agrees
  intro resourceClientSecret hresource
  apply (returns_sealUpdate input.resourceRegistrationAccessToken
    (connectorResourceRegistrationTokenContext id)).agrees
  intro resourceRegistrationAccessToken htoken
  have hseals : Seals cipher input (input.encrypted clientSecret registrationAccessToken
      resourceClientSecret resourceRegistrationAccessToken) :=
    ⟨rfl, ⟨_, hclient⟩, ⟨_, hregistration⟩, ⟨_, hresource⟩, ⟨_, htoken⟩⟩
  exact agrees_updateWhere input hseals (fun row => rfl) (fun s => rfl) fun db => rfl

theorem agrees_rotateResourceClientGeneration (id : String) (expectedGeneration : ℕ)
    (input : ResourceClientInput) :
    cipher.Agrees db
      ((cipher.rotateResourceClientGeneration id expectedGeneration input).bind fun row =>
        .pure row.toList)
      (openConnectors.program (.rotateResourceClientGeneration id expectedGeneration input)) := by
  simp only [SecretCipher.rotateResourceClientGeneration, bind_eq, Program.bind_assoc]
  apply (returns_sealUpdate input.resourceClientSecret (connectorResourceSecretContext id)).agrees
  intro resourceClientSecret hresource
  apply (returns_sealUpdate input.resourceRegistrationAccessToken
    (connectorResourceRegistrationTokenContext id)).agrees
  intro resourceRegistrationAccessToken htoken
  have hclient : SealsUpdate cipher "" input.clientSecret (input.clientSecret, none) := by
    rw [input.clientSecret_none]
    exact .kept
  have hseals : Seals cipher { toConnectorPatch := input.toConnectorPatch }
      (input.encrypted resourceClientSecret resourceRegistrationAccessToken) :=
    ⟨rfl, ⟨_, hclient⟩, ⟨"", .kept⟩, ⟨_, hresource⟩, ⟨_, htoken⟩⟩
  exact agrees_updateWhere _ hseals (fun row => rfl) (fun s => rfl) fun db => rfl

end Updates

/-! ### New rows and removed ones -/

/-- A new row with its secrets sealed. -/
structure SealsRow (cipher : SecretCipher) (input row : ConnectorRow) : Prop where
  columns : row.toIdentityProviderConnector = { input.toIdentityProviderConnector with
    clientSecret := row.clientSecret
    resourceClientSecret := row.resourceClientSecret
    resourceRegistrationAccessToken := row.resourceRegistrationAccessToken }
  clientSecret : ∃ context, SealsNew cipher context input.clientSecret
    (row.clientSecret, row.clientSecretContext)
  registrationAccessToken : ∃ context, SealsNew cipher context input.registrationAccessToken
    (row.registrationAccessToken, row.registrationAccessTokenContext)
  resourceClientSecret : ∃ context, SealsNew cipher context input.resourceClientSecret
    (row.resourceClientSecret, row.resourceClientSecretContext)
  resourceRegistrationAccessToken :
    ∃ context, SealsNew cipher context input.resourceRegistrationAccessToken
      (row.resourceRegistrationAccessToken, row.resourceRegistrationAccessTokenContext)

section Rows

variable {input row : ConnectorRow}

theorem SealsRow.legible (h : SealsRow cipher input row) : cipher.Legible row where
  clientSecret := h.clientSecret.choose_spec.readable
  registrationAccessToken := h.registrationAccessToken.choose_spec.readable
  resourceClientSecret := h.resourceClientSecret.choose_spec.readable
  resourceRegistrationAccessToken := h.resourceRegistrationAccessToken.choose_spec.readable

theorem SealsRow.sees (h : SealsRow cipher input row) :
    cipher.sees row = input.toIdentityProviderConnector.seen := by
  obtain ⟨hcolumns, ⟨_, hclient⟩, -, ⟨_, hresource⟩, ⟨_, htoken⟩⟩ := h
  have hclientSeen : seenSecret (cipher.textOf true row.clientSecret
      (row.clientSecretContext.getD (connectorSecretContext row.id))) =
        seenSecret input.clientSecret := hclient.seen
  have hresourceSeen : seenSecret (cipher.textOf true row.resourceClientSecret
      (row.resourceClientSecretContext.getD (connectorResourceSecretContext row.id))) =
        seenSecret input.resourceClientSecret := hresource.seen
  have htokenSeen : seenSecret (cipher.textOf false row.resourceRegistrationAccessToken
      (row.resourceRegistrationAccessTokenContext.getD
        (connectorResourceRegistrationTokenContext row.id))) =
          seenSecret input.resourceRegistrationAccessToken := htoken.seen
  simp only [SecretCipher.sees, reading, IdentityProviderConnector.seen]
  rw [hclientSeen, hresourceSeen, htokenSeen, hcolumns]

/-- A row is refused as what is seen of it is. -/
theorem refuses_sees (h : SealsRow cipher input row) (s : ConnectorStore) :
    s.refuses row =
      input.toIdentityProviderConnector.seen.conflicts (s.rows.map cipher.sees) := by
  have hid : row.id = input.id := congrArg (·.id) h.columns
  have hprovider : row.providerId = input.providerId := congrArg (·.providerId) h.columns
  simp only [ConnectorStore.refuses, IdentityProviderConnector.conflicts, List.any_map, hid,
    hprovider]
  rfl

/-- An insertion of a row with sealed secrets. -/
theorem agrees_insert (h : SealsRow cipher input row) :
    cipher.Agrees db
      (.call (.insert row) fun s =>
        (if s.refuses row then .throw (.constraint "identity_provider_connector")
          else cipher.decryptConnector row).bind fun row => .pure [row])
      (openConnectors.program (.create input)) := by
  refine Or.inr ⟨.insert input.toIdentityProviderConnector.seen, _, rfl, ?_⟩
  intro s hs
  have hrefuses : s.refuses row = input.toIdentityProviderConnector.seen.conflicts
      (cipher.view db s).identityProviderConnectors := refuses_sees h s
  simp only [exec, ← hrefuses]
  cases s.refuses row with
  | true => exact ⟨hs, rfl, _, rfl, rfl⟩
  | false =>
    refine ⟨?_, ?_, ?_⟩
    · intro old hold
      rcases List.mem_append.mp hold with hold | hnew
      · exact hs old hold
      · rw [List.mem_singleton.mp hnew]
        exact h.legible
    · have hrows : (s.rows ++ [row]).map cipher.sees =
          s.rows.map cipher.sees ++ [input.toIdentityProviderConnector.seen] := by
        rw [List.map_append, List.map_singleton, h.sees]
      exact congrArg (fun rows => { db with identityProviderConnectors := rows }) hrows
    · apply (returns_decryptConnector h.legible).agrees
      rintro _ rfl
      exact ⟨_, rfl, congrArg (fun connector => Except.ok [connector]) h.sees.symm⟩

theorem agrees_create (input : ConnectorRow) :
    cipher.Agrees db ((cipher.create input).bind fun row => .pure [row])
      (openConnectors.program (.create input)) := by
  simp only [SecretCipher.create, bind_eq, Program.bind_assoc]
  apply (returns_sealNew input.clientSecret (connectorSecretContext input.id)).agrees
  intro clientSecret hclient
  apply (returns_sealNew input.registrationAccessToken
    (connectorRegistrationTokenContext input.id)).agrees
  intro registrationAccessToken hregistration
  apply (returns_sealNew input.resourceClientSecret
    (connectorResourceSecretContext input.id)).agrees
  intro resourceClientSecret hresource
  apply (returns_sealNew input.resourceRegistrationAccessToken
    (connectorResourceRegistrationTokenContext input.id)).agrees
  intro resourceRegistrationAccessToken htoken
  have hseals : SealsRow cipher input (input.encrypted clientSecret registrationAccessToken
      resourceClientSecret resourceRegistrationAccessToken) :=
    ⟨rfl, ⟨_, hclient⟩, ⟨_, hregistration⟩, ⟨_, hresource⟩, ⟨_, htoken⟩⟩
  exact agrees_insert hseals

end Rows

theorem agrees_delete (id : String) :
    cipher.Agrees db ((deleteConnectorRow id).bind fun _ => .pure [])
      (openConnectors.program (.delete id)) := by
  change cipher.Agrees db (.call (.delete id) fun _ => .pure [])
    (openStatement (.delete id) fun _ => [])
  apply agrees_statement
  intro s hs
  refine ⟨?_, ?_, returns_pure rfl⟩
  · exact fun row hrow => hs row (List.mem_of_mem_filter hrow)
  · have hrows : (s.rows.filter fun row => row.id ≠ id).map cipher.sees =
        (s.rows.map cipher.sees).filter fun row => row.id ≠ id := map_filter_sees fun row => rfl
    exact congrArg (fun rows => { db with identityProviderConnectors := rows }) hrows

end SecretCipher

section Refinement

open SecretCipher

variable [AesGcm] {cipher : SecretCipher}

theorem sealed_refines (db : Database) :
    Pool.Refines cipher.LegibleStore (cipher.view db)
      (fun result answer => answer = seenResult result) (sealedConnectors cipher)
      openConnectors where
  program request := by
    cases request with
    | listEnabled => exact agrees_listEnabled
    | listEnabledForAuthentication => exact agrees_listEnabledForAuthentication
    | findById id => exact agrees_select fun row => rfl
    | findByProviderId providerId => exact agrees_select fun row => rfl
    | create input => exact agrees_create input
    | update id input => exact agrees_update id input
    | rotateResourceClientGeneration id expectedGeneration input =>
      exact agrees_rotateResourceClientGeneration id expectedGeneration input
    | delete id => exact agrees_delete id
  environment e s hs := by
    cases e with
    | elapse milliseconds => exact ⟨hs, rfl⟩

/-- In a store whose secrets can be read, every schedule of the repository is one of the repository
over open secrets: the connectors are what they are there, and so is what every operation
answers. Every secret stays one that can be read. -/
theorem sealed_secrets_refine (db : Database) {store : ConnectorStore}
    (h : cipher.LegibleStore store) (schedule : List ConnectorAction) :
    cipher.LegibleStore (sealedRun cipher store schedule).state ∧
      ∃ schedule', schedule'.Sublist schedule ∧
        (openRun (cipher.view db store) schedule').state =
            cipher.view db (sealedRun cipher store schedule).state ∧
          ∀ (i : ℕ) request (p : ConnectorProgram (List ConnectorRow)) result,
            (sealedRun cipher store schedule).procs[i]? = some (request, p) →
              p.result? = some result →
                ∃ q : OpenProgram,
                  (openRun (cipher.view db store) schedule').procs[i]? = some (request, q) ∧
                    q.result? = some (seenResult result) := by
  have hstart : Pool.Seen cipher.LegibleStore (cipher.view db)
      (fun result answer => answer = seenResult result) (sealedRun cipher store [])
        (openRun (cipher.view db store) []) := Pool.seen_idle h
  obtain ⟨schedule', hsublist, hseen⟩ := hstart.run (sealed_refines db) schedule
  refine ⟨hseen.kept, schedule', hsublist, hseen.state, ?_⟩
  intro i request p result hget hresult
  obtain ⟨q, _, hq, hend, rfl⟩ := hseen.result hget hresult
  exact ⟨q, hq, hend⟩


end Refinement

/-! ## A secret that was stored before secrets were sealed -/

namespace LegacySecretExample

open SecretCipher

/-- What is encrypted stands behind the key, the vector and the context. -/
def header (key iv data : List UInt8) : List UInt8 := 0 :: (key ++ iv ++ data)

@[reducible] def plainCipher : AesGcm where
  digest text := Utf8.encode text.toList
  encrypt key iv data plaintext := header key iv data ++ plaintext
  decrypt key iv data ciphertext :=
    if (header key iv data).isPrefixOf ciphertext then
      some (ciphertext.drop (header key iv data).length)
    else none
  encrypt_ne_nil key iv data plaintext := by simp [header]
  decrypt_encrypt key iv data plaintext _ := by
    have hheader : (header key iv data).isPrefixOf (header key iv data ++ plaintext) = true :=
      List.isPrefixOf_iff_prefix.mpr (List.prefix_append _ _)
    simp only [hheader, if_true, List.drop_left]
  encrypt_of_decrypt key iv data ciphertext plaintext h := by
    split_ifs at h with hheader
    obtain ⟨rest, rfl⟩ := List.isPrefixOf_iff_prefix.mp hheader
    rw [List.drop_left, Option.some.injEq] at h
    rw [h]

attribute [local instance] plainCipher

def cipher : SecretCipher := { key := [7] }

/-- A connector whose client secret is as it was stored. -/
def row : ConnectorRow :=
  { id := "connector"
    providerType := "generic_oauth"
    providerId := "example"
    displayName := "Example"
    enabled := true
    authenticationEnabled := true
    clientId := some "client"
    clientSecret := some "s3cret"
    issuer := none
    authorizationEndpoint := none
    tokenEndpoint := none
    userInfoEndpoint := none
    providerMetadata := none
    resourceAuthorizationEnabled := false
    resourceClientId := none
    resourceClientSecret := none
    resourceIssuer := none
    resourceAuthorizationEndpoint := none
    resourceTokenEndpoint := none
    resourceUserInfoEndpoint := none
    resourceJwksEndpoint := none
    resourceRegistrationEndpoint := none
    resourceRevocationEndpoint := none
    resourceRegistrationMode := none
    resourceRegistrationClientUri := none
    resourceRegistrationAccessToken := none
    resourceRegisteredScopes := none
    resourceClientGeneration := 1
    resourceRetiredClientGenerations := none
    resourceProviderMetadata := none
    updatedAt := 0 }

def store : ConnectorStore := { clock := 5, rows := [row] }

def vector : InitializationVector := ⟨List.replicate 12 9, rfl⟩

/-- Two readers find the secret as it was stored, and the second one to seal it finds it sealed. -/
def schedule : List ConnectorAction :=
  [.start (.findById "connector"), .start (.findById "connector"), .advance 0 vector,
    .advance 1 vector, .advance 0 vector, .advance 1 vector, .advance 0 vector, .advance 1 vector]

theorem legible : cipher.LegibleStore store := by
  intro row' hrow
  rw [List.mem_singleton.mp hrow]
  refine ⟨?_, readable_none, readable_none, readable_none⟩
  intro secret hsecret
  obtain ⟨hvalue, -⟩ := truthy_eq_some hsecret
  cases hvalue
  exact Or.inl (by decide)

theorem legacy_secret_sealed :
    ((sealedRun cipher store schedule).state.rows.map fun row =>
        (row.clientSecret.map isSealed, row.updatedAt)) = [(some true, 5)] ∧
      cipher.LegibleStore (sealedRun cipher store schedule).state ∧
        ∃ schedule', schedule'.Sublist schedule ∧
          (openRun (cipher.view {} store) schedule').state =
              cipher.view {} (sealedRun cipher store schedule).state ∧
            ∀ (i : ℕ) request (p : ConnectorProgram (List ConnectorRow)) result,
              (sealedRun cipher store schedule).procs[i]? = some (request, p) →
                p.result? = some result →
                  ∃ q : OpenProgram,
                    (openRun (cipher.view {} store) schedule').procs[i]? = some (request, q) ∧
                      q.result? = some (seenResult result) :=
  ⟨by decide +kernel, sealed_secrets_refine {} legible schedule⟩

end LegacySecretExample
end Realmroot
