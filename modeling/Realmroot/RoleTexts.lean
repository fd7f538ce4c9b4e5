import Realmroot.Library.Separated
import Realmroot.Repos.Memberships

/-!
# Roles as text

A text of valid role keys, joined by commas, says the same to the statements that
search it and to the code that splits it.
-/

namespace Realmroot

/-- `[a-z0-9]`. -/
def isRoleKeyChar (c : Char) : Bool := c.isLower || c.isDigit

/-- `(?:[-_][a-z0-9]+)*$` when a letter or digit has been read, and `[a-z0-9]+` before it
otherwise. -/
def roleKeyRest : Bool → List Char → Bool
  | started, [] => started
  | started, c :: cs =>
    if isRoleKeyChar c then roleKeyRest true cs
    else started && (c = '-' || c = '_') && roleKeyRest false cs

/-- `roleKeySchema`. -/
def isRoleKey (key : String) : Bool := roleKeyRest false key.toList && key.length ≤ 100

example : isRoleKey "release-manager_2" = true := by decide

example : isRoleKey "owner,admin" = false := by decide

/-- The roles of a member, as the statements store them. -/
def IsRoleText (text : String) : Prop :=
  ∃ roles : List String, text = serializeRoles roles ∧ ∀ role ∈ roles, isRoleKey role = true

/-- A character of a role key. -/
def RoleChar (c : Char) : Prop := isRoleKeyChar c = true ∨ c = '-' ∨ c = '_'

theorem roleChar_of_mem {started : Bool} {chars : List Char} (h : roleKeyRest started chars = true) :
    ∀ c ∈ chars, RoleChar c := by
  induction chars generalizing started with
  | nil => simp
  | cons c chars ih =>
    intro d hd
    rw [roleKeyRest] at h
    split_ifs at h with hc
    · rcases List.mem_cons.mp hd with rfl | hd
      · exact Or.inl hc
      · exact ih h d hd
    · simp only [Bool.and_eq_true, Bool.or_eq_true, decide_eq_true_eq] at h
      rcases List.mem_cons.mp hd with rfl | hd
      · exact Or.inr h.1.2
      · exact ih h.2 d hd

theorem IsRoleKey.chars {key : String} (h : isRoleKey key = true) : ∀ c ∈ key.toList, RoleChar c := by
  simp only [isRoleKey, Bool.and_eq_true] at h
  exact roleChar_of_mem h.1

theorem IsRoleKey.ne_empty {key : String} (h : isRoleKey key = true) : key ≠ "" := by
  rintro rfl
  simp [isRoleKey, roleKeyRest] at h

theorem isRoleKeyChar_bounds {c : Char} (h : isRoleKeyChar c = true) :
    (48 ≤ c.toNat ∧ c.toNat ≤ 57) ∨ (97 ≤ c.toNat ∧ c.toNat ≤ 122) := by
  unfold isRoleKeyChar Char.isLower at h
  simp only [Char.isDigit, Bool.or_eq_true, Bool.and_eq_true, decide_eq_true_eq, ge_iff_le,
    UInt32.le_iff_toNat_le] at h
  exact h.symm

theorem RoleChar.toLower {c : Char} (h : RoleChar c) : c.toLower = c := by
  rcases h with h | rfl | rfl
  · have hbounds := isRoleKeyChar_bounds h
    have hupper : ¬ (65 ≤ c.toNat ∧ c.toNat ≤ 90) := by omega
    unfold Char.toLower
    split_ifs with hc
    · exact absurd hc hupper
    · rfl
  · decide
  · decide

theorem RoleChar.ne_comma {c : Char} (h : RoleChar c) : c ≠ ',' := by
  rintro rfl
  rcases h with h | h | h <;> revert h <;> decide

theorem toNat_of_isWhiteSpace {c : Char} (h : isWhiteSpace c = true) :
    c.toNat < 48 ∨ 122 < c.toNat := by
  have hnat : c.val.toNat = c.toNat := rfl
  rw [isWhiteSpace, Bool.or_eq_true] at h
  rcases h with h | h
  · have hmem := of_decide_eq_true h
    simp only [List.mem_cons, List.not_mem_nil, or_false] at hmem
    rcases hmem with h | h | h | h | h | h | h | h | h | h | h | h | h | h <;>
      simp [← hnat, h]
  · rw [Bool.and_eq_true] at h
    have hle : (8192 : ℕ) ≤ c.val.toNat := UInt32.le_iff_toNat_le.mp (of_decide_eq_true h.1)
    omega

theorem RoleChar.not_whiteSpace {c : Char} (h : RoleChar c) : isWhiteSpace c = false := by
  rw [Bool.eq_false_iff]
  intro hspace
  rcases h with h | rfl | rfl
  · have hbounds := isRoleKeyChar_bounds h
    have houtside := toNat_of_isWhiteSpace hspace
    omega
  · exact absurd hspace (by decide)
  · exact absurd hspace (by decide)

/-! ## Searching and splitting -/

theorem dropWhile_eq_self {α : Type} {p : α → Bool} {l : List α} (h : ∀ a ∈ l, p a = false) :
    l.dropWhile p = l := by
  cases l with
  | nil => rfl
  | cons a l => rw [List.dropWhile_cons, h a (by simp), if_neg (by simp)]

theorem trim_eq_self {value : String} (h : ∀ c ∈ value.toList, isWhiteSpace c = false) :
    trim value = value := by
  have hreverse : ∀ c ∈ value.toList.reverse, isWhiteSpace c = false := fun c hc =>
    h c (List.mem_reverse.mp hc)
  rw [trim, dropWhile_eq_self h, dropWhile_eq_self hreverse, List.reverse_reverse,
    String.ofList_toList]

theorem trim_key {key : String} (h : isRoleKey key = true) : trim key = key :=
  trim_eq_self fun c hc => (IsRoleKey.chars h c hc).not_whiteSpace

section Keys

variable {keys : List String} (hkeys : ∀ key ∈ keys, isRoleKey key = true)

include hkeys

theorem comma_not_mem_keys : ∀ entry ∈ keys.map String.toList, ',' ∉ entry := by
  intro entry hentry hcomma
  obtain ⟨key, hkey, rfl⟩ := List.mem_map.mp hentry
  exact (IsRoleKey.chars (hkeys key hkey) ',' hcomma).ne_comma rfl

/-- The joined keys split into the keys. -/
theorem deserializeRoles_intercalate {role : String} :
    role ∈ deserializeRoles (String.ofList ([','].intercalate (keys.map String.toList))) ↔
      role ∈ keys := by
  rw [deserializeRoles, mem_sortStrings, mem_unique, String.toList_ofList]
  by_cases hnil : keys = []
  · subst hnil
    simp [trim]
  · rw [List.splitOn_intercalate ',' (comma_not_mem_keys hkeys) (by simpa using hnil)]
    simp only [List.map_map, List.mem_filter, List.mem_map, Function.comp_apply,
      String.ofList_toList, ne_eq, decide_not, Bool.not_eq_true', decide_eq_false_iff_not]
    constructor
    · rintro ⟨⟨key, hkey, rfl⟩, -⟩
      rwa [trim_key (hkeys key hkey)]
    · intro hrole
      exact ⟨⟨role, hrole, trim_key (hkeys role hrole)⟩, IsRoleKey.ne_empty (hkeys role hrole)⟩

/-- The joined keys are in lower case. -/
theorem toLower_intercalate :
    ([','].intercalate (keys.map String.toList)).map Char.toLower =
      [','].intercalate (keys.map String.toList) := by
  have hlower : ∀ c ∈ [','].intercalate (keys.map String.toList), c.toLower = c := by
    apply Separated.forall_mem_intercalate
    · decide
    · intro entry hentry c hc
      obtain ⟨key, hkey, rfl⟩ := List.mem_map.mp hentry
      exact (IsRoleKey.chars (hkeys key hkey) c hc).toLower
  rw [List.map_congr_left hlower, List.map_id']

/-- The joined keys are searched for a key with success exactly when it is there. -/
theorem likeRole_intercalate {role : String} (hrole : isRoleKey role = true) :
    likeRole role (String.ofList ([','].intercalate (keys.map String.toList))) = true ↔
      role ∈ keys := by
  have hchars := IsRoleKey.chars hrole
  have hlower : role.toList.map Char.toLower = role.toList := by
    rw [List.map_congr_left fun c hc => (hchars c hc).toLower, List.map_id']
  have hcomma : ',' ∉ role.toList := fun hc => (hchars ',' hc).ne_comma rfl
  rw [likeRole, decide_eq_true_eq, String.toList_ofList, hlower, toLower_intercalate hkeys]
  by_cases hnil : keys = []
  · subst hnil
    have hne : role.toList ≠ [] := by simpa using IsRoleKey.ne_empty hrole
    have hlength := List.length_pos_iff.mpr hne
    have hlong : ¬ (',' :: role.toList ++ [',']) <:+: [',', ','] := by
      intro h
      have hle := h.length_le
      simp only [List.cons_append, List.length_cons, List.length_append, List.length_nil] at hle
      omega
    simpa using hlong
  · rw [Separated.infix_enclosed_iff hcomma (comma_not_mem_keys hkeys) (by simpa using hnil)]
    simp [String.toList_inj]

end Keys

/-- A stored text of roles is searched for the owner role with success exactly when
the roles that it is split into include that role. -/
theorem IsRoleText.likeRole_iff {text : String} (h : IsRoleText text) :
    likeRole "owner" text = true ↔ "owner" ∈ deserializeRoles text := by
  obtain ⟨roles, rfl, hkeys⟩ := h
  have hsorted : ∀ key ∈ sortStrings (unique roles), isRoleKey key = true := by
    intro key hkey
    exact hkeys key (by simpa using hkey)
  rw [serializeRoles, likeRole_intercalate hsorted (by decide),
    deserializeRoles_intercalate hsorted]

theorem mem_deserializeRoles {roles : List String} {role : String}
    (hkeys : ∀ key ∈ roles, isRoleKey key = true) :
    role ∈ deserializeRoles (serializeRoles roles) ↔ role ∈ roles := by
  have hsorted : ∀ key ∈ sortStrings (unique roles), isRoleKey key = true := by
    intro key hkey
    exact hkeys key (by simpa using hkey)
  rw [serializeRoles, deserializeRoles_intercalate hsorted]
  simp

end Realmroot
