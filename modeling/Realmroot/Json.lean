import Realmroot.Library.Words
import Mathlib.Data.Rat.Defs
import Mathlib.Data.List.Sort

/-!
# Values of the language

JSON values as the source handles them (token claims, authorization details),
the readers it applies to claims, and the string functions it calls: splitting
at white space, joining, trimming and sorting. A number is the rational it
denotes; JSON has no infinities.
-/

namespace Realmroot

inductive Json where
  | null
  | bool (value : Bool)
  | num (value : ℚ)
  | str (value : String)
  | arr (entries : List Json)
  | obj (fields : List (String × Json))

namespace Json

mutual

def decEq : (a b : Json) → Decidable (a = b)
  | .null, .null => isTrue rfl
  | .bool a, .bool b => decidable_of_iff (a = b) (by simp)
  | .num a, .num b => decidable_of_iff (a = b) (by simp)
  | .str a, .str b => decidable_of_iff (a = b) (by simp)
  | .arr a, .arr b => have := decEqEntries a b; decidable_of_iff (a = b) (by simp)
  | .obj a, .obj b => have := decEqFields a b; decidable_of_iff (a = b) (by simp)
  | .null, .bool _ | .null, .num _ | .null, .str _ | .null, .arr _ | .null, .obj _
  | .bool _, .null | .bool _, .num _ | .bool _, .str _ | .bool _, .arr _ | .bool _, .obj _
  | .num _, .null | .num _, .bool _ | .num _, .str _ | .num _, .arr _ | .num _, .obj _
  | .str _, .null | .str _, .bool _ | .str _, .num _ | .str _, .arr _ | .str _, .obj _
  | .arr _, .null | .arr _, .bool _ | .arr _, .num _ | .arr _, .str _ | .arr _, .obj _
  | .obj _, .null | .obj _, .bool _ | .obj _, .num _ | .obj _, .str _ | .obj _, .arr _ =>
    isFalse (by simp)

def decEqEntries : (a b : List Json) → Decidable (a = b)
  | [], [] => isTrue rfl
  | a :: as, b :: bs =>
    have := decEq a b
    have := decEqEntries as bs
    decidable_of_iff (a = b ∧ as = bs) (by simp)
  | [], _ :: _ => isFalse (by simp)
  | _ :: _, [] => isFalse (by simp)

def decEqFields : (a b : List (String × Json)) → Decidable (a = b)
  | [], [] => isTrue rfl
  | (k, a) :: as, (l, b) :: bs =>
    have := decEq a b
    have := decEqFields as bs
    decidable_of_iff (k = l ∧ a = b ∧ as = bs) (by simp [and_assoc])
  | [], _ :: _ => isFalse (by simp)
  | _ :: _, [] => isFalse (by simp)

end

instance : DecidableEq Json := decEq

mutual

/-- The strings among the values of a document, at any depth. -/
def texts : Json → List String
  | .str value => [value]
  | .arr entries => textsOfEntries entries
  | .obj fields => textsOfFields fields
  | _ => []

def textsOfEntries : List Json → List String
  | [] => []
  | entry :: entries => entry.texts ++ textsOfEntries entries

def textsOfFields : List (String × Json) → List String
  | [] => []
  | (_, value) :: fields => value.texts ++ textsOfFields fields

end

end Json

/-- The fields of a JSON object; a missing field is `undefined`. -/
abbrev Record := List (String × Json)

def Record.field (record : Record) (key : String) : Option Json := record.lookup key

/-- The value at a path of fields. -/
def Json.at? : Json → List String → Option Json
  | value, [] => some value
  | .obj fields, key :: path => (Record.field fields key).bind fun value => value.at? path
  | _, _ :: _ => none

/-! ## Strings -/

/-- The characters that `\s` matches and `trim` removes. -/
def isWhiteSpace (c : Char) : Bool :=
  c.val ∈ [0x9, 0xa, 0xb, 0xc, 0xd, 0x20, 0xa0, 0x1680, 0x2028, 0x2029, 0x202f, 0x205f, 0x3000,
    0xfeff] || (0x2000 ≤ c.val && c.val ≤ 0x200a)

/-- `value.split(/\s+/).filter(Boolean)`. -/
def splitWhiteSpace (value : String) : List String :=
  (Words.words isWhiteSpace value.toList).map String.ofList

/-- `values.join(' ')`. -/
def joinWithSpace (values : List String) : String :=
  String.ofList (Words.unwords ' ' (values.map String.toList))

/-- `value.trim()`. -/
def trim (value : String) : String :=
  String.ofList (((value.toList.dropWhile isWhiteSpace).reverse.dropWhile isWhiteSpace).reverse)

/-- `[...new Set(values)]`: first occurrences, in order. -/
def unique {α : Type} [BEq α] (values : List α) : List α := values.eraseDups

/-- `values.sort()`. -/
def sortStrings (values : List String) : List String := values.insertionSort (· ≤ ·)

/-- A string that splitting at white space leaves whole. -/
def IsScopeToken (value : String) : Prop := Words.IsWord isWhiteSpace value.toList

@[simp] theorem mem_unique {α : Type} [BEq α] [LawfulBEq α] {values : List α} {a : α} :
    a ∈ unique values ↔ a ∈ values := List.mem_eraseDups

theorem nodup_unique {α : Type} [BEq α] [LawfulBEq α] (values : List α) :
    (unique values).Nodup := by
  unfold unique
  induction h : values.length using Nat.strong_induction_on generalizing values with
  | _ n ih =>
    cases values with
    | nil => simp
    | cons a values =>
      rw [List.eraseDups_cons, List.nodup_cons]
      have hshorter : (values.filter fun b => !b == a).length < n := by
        have hle := List.length_filter_le (fun b => !b == a) values
        simp only [List.length_cons] at h
        omega
      exact ⟨by simp [List.mem_eraseDups], ih _ hshorter _ rfl⟩

@[simp] theorem mem_sortStrings {values : List String} {a : String} :
    a ∈ sortStrings values ↔ a ∈ values := List.mem_insertionSort _

theorem isScopeToken_of_mem_splitWhiteSpace {value scope : String}
    (h : scope ∈ splitWhiteSpace value) : IsScopeToken scope := by
  obtain ⟨w, hw, rfl⟩ := List.mem_map.mp h
  simpa [IsScopeToken] using Words.isWord_of_mem_words hw

/-- A joined list of tokens splits into the same tokens. -/
theorem splitWhiteSpace_joinWithSpace {values : List String}
    (h : ∀ value ∈ values, IsScopeToken value) :
    splitWhiteSpace (joinWithSpace values) = values := by
  have hwords : ∀ w ∈ values.map String.toList, Words.IsWord isWhiteSpace w := by
    intro w hw
    obtain ⟨value, hvalue, rfl⟩ := List.mem_map.mp hw
    exact h value hvalue
  have hblank : isWhiteSpace ' ' = true := by decide
  rw [splitWhiteSpace, joinWithSpace, String.toList_ofList, Words.words_unwords hblank _ hwords,
    List.map_map]
  simp [Function.comp_def]

/-! ## Readers of claims -/

/-- `readString`: a non-empty string. -/
def readString : Option Json → Option String
  | some (.str value) => if value = "" then none else some value
  | _ => none

/-- `readNumber`. -/
def readNumber : Option Json → Option ℚ
  | some (.num value) => some value
  | _ => none

/-- `readSingleAudience`: a non-empty string, or a list of exactly one. -/
def readSingleAudience : Option Json → Option String
  | some (.str value) => if value = "" then none else some value
  | some (.arr [.str value]) => if value = "" then none else some value
  | _ => none

/-- `isRecord(value) ? value : null`. -/
def readRecord : Option Json → Option Record
  | some (.obj fields) => some fields
  | _ => none

/-- `parseSpaceSeparatedClaim`. -/
def parseSpaceSeparatedClaim : Option Json → List String
  | some (.str value) => unique (splitWhiteSpace value)
  | _ => []

theorem readString_eq_some {value : Option Json} {s : String} (h : readString value = some s) :
    value = some (.str s) ∧ s ≠ "" := by
  unfold readString at h
  split at h
  · split_ifs at h with hne
    cases h
    exact ⟨rfl, hne⟩
  · cases h

@[simp] theorem readString_str {s : String} (h : s ≠ "") : readString (some (.str s)) = some s := by
  simp [readString, h]

end Realmroot
