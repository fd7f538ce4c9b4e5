import Realmroot.Library.Joined
import Realmroot.Quoting
import Mathlib.Data.String.Basic
import Mathlib.Data.Bool.AllAny

/-!
# Canonical texts

`canonicalJson`, which the source declares twice with one body, writes the entries of an object
in the order of the locale. Its text stands for the value up to the order of the keys, wherever
the order of the locale tells distinct keys apart.
-/

namespace Realmroot

namespace Json

/-- Equality up to the order of the keys of objects. -/
inductive Same : Json → Json → Prop
  | null : Same .null .null
  | bool (value : Bool) : Same (.bool value) (.bool value)
  | num (value : ℚ) : Same (.num value) (.num value)
  | str (value : String) : Same (.str value) (.str value)
  | arr {entries entries' : List Json} (hentries : List.Forall₂ Same entries entries') :
    Same (.arr entries) (.arr entries')
  | obj {fields ordered fields' : List (String × Json)}
    (hkeys : fields.map (·.1) = ordered.map (·.1))
    (hvalues : List.Forall₂ Same (fields.map (·.2)) (ordered.map (·.2)))
    (hperm : ordered.Perm fields') : Same (.obj fields) (.obj fields')

/-- What passes from the parts of a document to the whole. -/
structure Hereditary (motive : Json → Prop) : Prop where
  null : motive .null
  bool : ∀ value, motive (.bool value)
  num : ∀ value, motive (.num value)
  str : ∀ value, motive (.str value)
  arr : ∀ entries, (∀ entry ∈ entries, motive entry) → motive (.arr entries)
  obj : ∀ fields : List (String × Json), (∀ field ∈ fields, motive field.2) → motive (.obj fields)

mutual

theorem Hereditary.holds {motive : Json → Prop} (h : Hereditary motive) : ∀ value, motive value
  | .null => h.null
  | .bool value => h.bool value
  | .num value => h.num value
  | .str value => h.str value
  | .arr entries => h.arr entries (h.entries entries)
  | .obj fields => h.obj fields (h.fields fields)

theorem Hereditary.entries {motive : Json → Prop} (h : Hereditary motive) :
    ∀ entries : List Json, ∀ entry ∈ entries, motive entry
  | [], _, hmem => by cases hmem
  | first :: entries, entry, hmem => by
    rcases List.mem_cons.mp hmem with heq | hlater
    · rw [heq]
      exact h.holds first
    · exact h.entries entries entry hlater

theorem Hereditary.fields {motive : Json → Prop} (h : Hereditary motive) :
    ∀ fields : List (String × Json), ∀ field ∈ fields, motive field.2
  | [], _, hmem => by cases hmem
  | (key, first) :: fields, field, hmem => by
    rcases List.mem_cons.mp hmem with heq | hlater
    · rw [heq]
      exact h.holds first
    · exact h.fields fields field hlater

end

mutual

/-- The numbers of a document are among those, and so are the lists of keys of its objects. -/
def Over (numbers : ℚ → Prop) (keys : List String → Prop) : Json → Prop
  | .num value => numbers value
  | .arr entries => OverEntries numbers keys entries
  | .obj fields => keys (fields.map (·.1)) ∧ OverFields numbers keys fields
  | _ => True

def OverEntries (numbers : ℚ → Prop) (keys : List String → Prop) : List Json → Prop
  | [] => True
  | entry :: entries => entry.Over numbers keys ∧ OverEntries numbers keys entries

def OverFields (numbers : ℚ → Prop) (keys : List String → Prop) : List (String × Json) → Prop
  | [] => True
  | (_, value) :: fields => value.Over numbers keys ∧ OverFields numbers keys fields

end

variable {numbers : ℚ → Prop} {keys : List String → Prop}

@[simp] theorem over_num {value : ℚ} : (Json.num value).Over numbers keys ↔ numbers value := by
  simp [Over]

@[simp] theorem over_str {value : String} : (Json.str value).Over numbers keys := by
  simp [Over]

@[simp] theorem over_arr {entries : List Json} :
    (Json.arr entries).Over numbers keys ↔ ∀ entry ∈ entries, entry.Over numbers keys := by
  have hentries : OverEntries numbers keys entries ↔
      ∀ entry ∈ entries, entry.Over numbers keys := by
    induction entries with
    | nil => simp [OverEntries]
    | cons entry entries ih => simp [OverEntries, ih]
  simpa [Over] using hentries

@[simp] theorem over_obj {fields : List (String × Json)} :
    (Json.obj fields).Over numbers keys ↔
      keys (fields.map (·.1)) ∧ ∀ field ∈ fields, field.2.Over numbers keys := by
  have hfields : OverFields numbers keys fields ↔
      ∀ field ∈ fields, field.2.Over numbers keys := by
    induction fields with
    | nil => simp [OverFields]
    | cons field fields ih => simp [OverFields, ih]
  simp [Over, hfields]

/-- Fields with the same keys and values that are the same. -/
def SameField (field field' : String × Json) : Prop := field.1 = field'.1 ∧ Same field.2 field'.2

theorem forall₂_sameField_iff {fields fields' : List (String × Json)} :
    List.Forall₂ SameField fields fields' ↔ fields.map (·.1) = fields'.map (·.1) ∧
      List.Forall₂ Same (fields.map (·.2)) (fields'.map (·.2)) := by
  induction fields generalizing fields' with
  | nil => cases fields' <;> simp
  | cons field fields ih =>
    cases fields' with
    | nil => simp
    | cons field' fields' =>
      simp only [List.forall₂_cons, List.map_cons, List.cons.injEq, ih, SameField]
      tauto

/-- Objects whose fields are the same in some order of each. -/
theorem Same.of_perm {fields sorted sorted' fields' : List (String × Json)}
    (hperm : fields.Perm sorted) (h : List.Forall₂ SameField sorted sorted')
    (hperm' : sorted'.Perm fields') : Same (.obj fields) (.obj fields') := by
  obtain ⟨ordered, hordered, hrest⟩ := List.perm_comp_forall₂ hperm h
  obtain ⟨hkeys, hvalues⟩ := forall₂_sameField_iff.mp hordered
  exact .obj hkeys hvalues (hrest.trans hperm')

end Json

/-! ## The text of a document -/

section Texts

variable [Platform]

theorem canonicalEntries_eq (entries : List Json) :
    canonicalEntries entries = entries.map canonicalJson := by
  induction entries with
  | nil => rfl
  | cons entry entries ih => simp [canonicalEntries, ih]

theorem canonicalFields_eq (fields : List (String × Json)) :
    canonicalFields fields = fields.map fun field => (field.1, canonicalJson field.2) := by
  induction fields with
  | nil => rfl
  | cons field fields ih => simp [canonicalFields, ih]

/-- The fields in the order of the locale. -/
def sortFields (fields : List (String × Json)) : List (String × Json) :=
  fields.insertionSort fun left right => Platform.localeLe left.1 right.1

theorem perm_sortFields (fields : List (String × Json)) : (sortFields fields).Perm fields :=
  List.perm_insertionSort _ _

/-- The characters of `canonicalJson`. -/
def canonicalChars (value : Json) : List Char := (canonicalJson value).toList

/-- The characters of one entry of an object. -/
def fieldChars (field : String × Json) : List Char :=
  (quoteString field.1).toList ++ ':' :: canonicalChars field.2

theorem canonicalChars_null : canonicalChars .null = ['n', 'u', 'l', 'l'] := by
  simp [canonicalChars, canonicalJson]

theorem canonicalChars_bool (value : Bool) :
    canonicalChars (.bool value) =
      if value then ['t', 'r', 'u', 'e'] else ['f', 'a', 'l', 's', 'e'] := by
  cases value <;> simp [canonicalChars, canonicalJson]

theorem canonicalChars_num (value : ℚ) :
    canonicalChars (.num value) = (Platform.numberToString value).toList := by
  simp [canonicalChars, canonicalJson]

theorem canonicalChars_str (value : String) :
    canonicalChars (.str value) =
      '"' :: (value.toList.flatMap escapeCharacter ++ ['"']) := by
  simp [canonicalChars, canonicalJson, quoteString]

omit [Platform] in
theorem quoteString_toList (value : String) :
    (quoteString value).toList = '"' :: (value.toList.flatMap escapeCharacter ++ ['"']) := by
  simp [quoteString]

theorem canonicalChars_arr (entries : List Json) :
    canonicalChars (.arr entries) =
      '[' :: ([','].intercalate (entries.map canonicalChars) ++ [']']) := by
  simp [canonicalChars, canonicalJson, joinWithComma, canonicalEntries_eq,
    String.toList_intercalate, Function.comp_def]
  rfl

theorem canonicalChars_obj (fields : List (String × Json)) :
    canonicalChars (.obj fields) =
      '\x7b' :: ([','].intercalate ((sortFields fields).map fieldChars) ++ ['\x7d']) := by
  have hsorted : (canonicalFields fields).insertionSort
      (fun a b => Platform.localeLe a.1 b.1) =
        (sortFields fields).map fun field => (field.1, canonicalJson field.2) := by
    rw [canonicalFields_eq, sortFields]
    symm
    apply List.map_insertionSort
    intro _ _ _ _
    rfl
  simp [canonicalChars, canonicalJson, hsorted, joinWithComma, String.toList_intercalate,
    Function.comp_def]
  rfl

/-! ## Reading a text -/

/-- The constructor of a value. -/
inductive JsonKind where
  | null
  | bool
  | num
  | str
  | arr
  | obj
  deriving DecidableEq

def Json.kind : Json → JsonKind
  | .null => .null
  | .bool _ => .bool
  | .num _ => .num
  | .str _ => .str
  | .arr _ => .arr
  | .obj _ => .obj

/-- The kind of a value whose text begins with the character. -/
def kindOf (c : Char) : JsonKind :=
  if c = 'n' then .null
  else if c = 't' ∨ c = 'f' then .bool
  else if c = '"' then .str
  else if c = '[' then .arr
  else if c = '\x7b' then .obj
  else .num

def numberCharacters : List Char := "0123456789+-.e".toList

/-- What `JSON.stringify` writes of numbers: digits, signs, a point and an exponent, and other
texts for other numbers. -/
structure NumberTexts (numbers : ℚ → Prop) : Prop where
  ne_empty : ∀ value, numbers value → Platform.numberToString value ≠ ""
  characters : ∀ value, numbers value → ∀ c ∈ (Platform.numberToString value).toList,
    c ∈ numberCharacters
  injective : ∀ value value', numbers value → numbers value' →
    Platform.numberToString value = Platform.numberToString value' → value = value'

/-- What stops the text of a value. -/
def Stops (c : Char) : Prop := c = ',' ∨ c = ']' ∨ c = '\x7d'

instance : DecidablePred Stops := fun _ => inferInstanceAs (Decidable (_ ∨ _))

omit [Platform] in
theorem stops_comma : Stops ',' := Or.inl rfl

omit [Platform] in
theorem stops_bracket : Stops ']' := Or.inr (Or.inl rfl)

omit [Platform] in
theorem stops_brace : Stops '\x7d' := Or.inr (Or.inr rfl)

omit [Platform] in
theorem kindOf_numberCharacter :
    ∀ c ∈ numberCharacters, kindOf c = .num ∧ ¬ Stops c :=
  List.all_iff_forall_prop.mp (by decide)

variable {numbers : ℚ → Prop} {keys : List String → Prop}

/-- A text shows by its first character what it is the text of. -/
theorem canonicalChars_begin (hnumbers : NumberTexts numbers) {value : Json}
    (h : value.Over numbers keys) :
    ∃ c text, canonicalChars value = c :: text ∧ kindOf c = value.kind ∧ ¬ Stops c := by
  cases value with
  | null => exact ⟨'n', ['u', 'l', 'l'], canonicalChars_null, rfl, by decide⟩
  | bool value =>
    cases value with
    | true => exact ⟨'t', ['r', 'u', 'e'], canonicalChars_bool true, rfl, by decide⟩
    | false => exact ⟨'f', ['a', 'l', 's', 'e'], canonicalChars_bool false, rfl, by decide⟩
  | num value =>
    have hne := hnumbers.ne_empty value h
    have hcharacters := hnumbers.characters value h
    cases htext : (Platform.numberToString value).toList with
    | nil => exact absurd (String.toList_inj.mp (by simpa using htext)) hne
    | cons c text =>
      rw [htext] at hcharacters
      exact ⟨c, text, (canonicalChars_num value).trans htext,
        kindOf_numberCharacter c (hcharacters c List.mem_cons_self)⟩
  | str value => exact ⟨'"', _, canonicalChars_str value, rfl, by decide⟩
  | arr entries => exact ⟨'[', _, canonicalChars_arr entries, rfl, by decide⟩
  | obj fields => exact ⟨'\x7b', _, canonicalChars_obj fields, rfl, by decide⟩

omit [Platform] in
/-- Two texts of numbers that something stops are the same. -/
theorem number_inj {text text' rest rest' : List Char}
    (htext : ∀ c ∈ text, c ∈ numberCharacters) (htext' : ∀ c ∈ text', c ∈ numberCharacters)
    (hrest : Joined.Stopped Stops rest)
    (hrest' : Joined.Stopped Stops rest') (h : text ++ rest = text' ++ rest') :
    text = text' ∧ rest = rest' := by
  have hread : ∀ (text rest : List Char), (∀ c ∈ text, c ∈ numberCharacters) →
      Joined.Stopped Stops rest →
        (text ++ rest).takeWhile (¬ Stops ·) = text := by
    intro text rest htext hrest
    have hfree : ∀ c ∈ text, decide (¬ Stops c) = true := by
      intro c hc
      exact decide_eq_true (kindOf_numberCharacter c (htext c hc)).2
    rw [List.takeWhile_append_of_pos hfree]
    cases rest with
    | nil => simp
    | cons c rest =>
      have hc : Stops c := by simpa using hrest
      simp [hc]
  have hsame := congrArg (List.takeWhile (¬ Stops ·)) h
  rw [hread text rest htext hrest, hread text' rest' htext' hrest'] at hsame
  rw [hsame] at h
  exact ⟨hsame, List.append_cancel_left h⟩

/-- The text of a value can be told apart from what follows it, and stands for the value up to
the order of keys. -/
def ReadsBack (numbers : ℚ → Prop) (keys : List String → Prop) (value : Json) : Prop :=
  value.Over numbers keys → ∀ value', value'.Over numbers keys →
    Joined.Reads Stops canonicalChars Json.Same value value'

/-- Values whose texts begin a text are of the same kind. -/
theorem kind_eq (hnumbers : NumberTexts numbers) {value value' : Json} {rest rest' : List Char}
    (hover : value.Over numbers keys) (hover' : value'.Over numbers keys)
    (h : canonicalChars value ++ rest = canonicalChars value' ++ rest') :
    value.kind = value'.kind := by
  obtain ⟨c, text, htext, hkind, -⟩ := canonicalChars_begin hnumbers hover
  obtain ⟨c', text', htext', hkind', -⟩ := canonicalChars_begin hnumbers hover'
  rw [htext, htext'] at h
  have hc : c = c' := by simpa using congrArg List.head? h
  rw [← hkind, ← hkind', hc]

theorem begins_without_stop (hnumbers : NumberTexts numbers) {value : Json} {close : Char}
    (hover : value.Over numbers keys) (hclose : Stops close) :
    ∃ c text, canonicalChars value = c :: text ∧ c ≠ close := by
  obtain ⟨c, text, htext, -, hstops⟩ := canonicalChars_begin hnumbers hover
  refine ⟨c, text, htext, ?_⟩
  rintro rfl
  exact hstops hclose

theorem reads_bool (hnumbers : NumberTexts numbers) (value : Bool) :
    ReadsBack numbers keys (.bool value) := by
  intro hover value' hover' rest rest' _ _ h
  have hkind := kind_eq hnumbers hover hover' h
  cases value' with
  | bool value' =>
    cases value <;> cases value' <;>
      simp_all [canonicalChars_bool, Json.Same.bool]
  | _ => cases hkind

theorem reads_num (hnumbers : NumberTexts numbers) (value : ℚ) :
    ReadsBack numbers keys (.num value) := by
  intro hover value' hover' rest rest' hrest hrest' h
  have hkind := kind_eq hnumbers hover hover' h
  cases value' with
  | num value' =>
    rw [canonicalChars_num, canonicalChars_num] at h
    obtain ⟨htext, hrests⟩ := number_inj (hnumbers.characters value hover)
      (hnumbers.characters value' hover') hrest hrest' h
    have hvalue := hnumbers.injective value value' hover hover' (String.toList_inj.mp htext)
    rw [hvalue]
    exact ⟨.num value', hrests⟩
  | _ => cases hkind

theorem reads_str (hnumbers : NumberTexts numbers) (value : String) :
    ReadsBack numbers keys (.str value) := by
  intro hover value' hover' rest rest' _ _ h
  have hkind := kind_eq hnumbers hover hover' h
  cases value' with
  | str value' =>
    simp only [canonicalChars_str, List.cons_append, List.append_assoc, List.cons.injEq,
      true_and, List.nil_append] at h
    obtain ⟨hvalue, hrests⟩ := escaped_append_inj h
    rw [String.toList_inj.mp hvalue]
    exact ⟨.str value', hrests⟩
  | _ => cases hkind

theorem reads_arr (hnumbers : NumberTexts numbers) {entries : List Json}
    (hentries : ∀ entry ∈ entries, ReadsBack numbers keys entry) :
    ReadsBack numbers keys (.arr entries) := by
  intro hover value' hover' rest rest' _ _ h
  have hkind := kind_eq hnumbers hover hover' h
  cases value' with
  | arr entries' =>
    rw [Json.over_arr] at hover hover'
    simp only [canonicalChars_arr, List.cons_append, List.append_assoc, List.cons.injEq,
      true_and, List.nil_append] at h
    have hbegin : ∀ entry ∈ entries ++ entries', ∃ c text, canonicalChars entry = c :: text ∧
        c ≠ ']' := by
      intro entry hentry
      rcases List.mem_append.mp hentry with hmem | hmem
      · exact begins_without_stop hnumbers (hover entry hmem) stops_bracket
      · exact begins_without_stop hnumbers (hover' entry hmem) stops_bracket
    have hreads : ∀ entry ∈ entries, ∀ entry' ∈ entries',
        Joined.Reads Stops canonicalChars Json.Same entry entry' :=
      fun entry hentry entry' hentry' =>
        hentries entry hentry (hover entry hentry) entry' (hover' entry' hentry')
    obtain ⟨hsame, hrests⟩ :=
      Joined.forall₂_of_row stops_comma stops_bracket (by decide) hbegin hreads h
    exact ⟨.arr hsame, hrests⟩
  | _ => cases hkind

/-- A field can be told apart from what follows it. -/
theorem reads_field {field field' : String × Json}
    (hvalue : Joined.Reads Stops canonicalChars Json.Same field.2 field'.2) :
    Joined.Reads Stops fieldChars Json.SameField field field' := by
  intro rest rest' hrest hrest' h
  simp only [fieldChars, quoteString_toList, List.cons_append, List.append_assoc,
    List.cons.injEq, true_and, List.nil_append] at h
  obtain ⟨hkey, hafter⟩ := escaped_append_inj h
  obtain ⟨hsame, hrests⟩ := hvalue rest rest' hrest hrest' (List.cons.inj hafter).2
  exact ⟨⟨String.toList_inj.mp hkey, hsame⟩, hrests⟩

/-- The texts of two objects agree field by field, in the order of the locale. -/
theorem reads_fields {fields fields' : List (String × Json)} {rest rest' : List Char}
    (hfields : ∀ field ∈ fields, ReadsBack numbers keys field.2)
    (hover : (Json.obj fields).Over numbers keys) (hover' : (Json.obj fields').Over numbers keys)
    (h : canonicalChars (.obj fields) ++ rest = canonicalChars (.obj fields') ++ rest') :
    List.Forall₂ Json.SameField (sortFields fields) (sortFields fields') ∧ rest = rest' := by
  rw [Json.over_obj] at hover hover'
  simp only [canonicalChars_obj, List.cons_append, List.append_assoc, List.cons.injEq,
    true_and, List.nil_append] at h
  have hbegin : ∀ field ∈ sortFields fields ++ sortFields fields', ∃ c text,
      fieldChars field = c :: text ∧ c ≠ '\x7d' := by
    intro field _
    simp [fieldChars, quoteString_toList]
  have hreads : ∀ field ∈ sortFields fields, ∀ field' ∈ sortFields fields',
      Joined.Reads Stops fieldChars Json.SameField field field' := by
    intro field hfield field' hfield'
    have hmem := (perm_sortFields fields).mem_iff.mp hfield
    have hmem' := (perm_sortFields fields').mem_iff.mp hfield'
    exact reads_field
      (hfields field hmem (hover.2 field hmem) field'.2 (hover'.2 field' hmem'))
  exact Joined.forall₂_of_row stops_comma stops_brace (by decide) hbegin hreads h

theorem reads_obj (hnumbers : NumberTexts numbers) {fields : List (String × Json)}
    (hfields : ∀ field ∈ fields, ReadsBack numbers keys field.2) :
    ReadsBack numbers keys (.obj fields) := by
  intro hover value' hover' rest rest' _ _ h
  have hkind := kind_eq hnumbers hover hover' h
  cases value' with
  | obj fields' =>
    obtain ⟨hsame, hrests⟩ := reads_fields hfields hover hover' h
    exact ⟨.of_perm (perm_sortFields fields).symm hsame (perm_sortFields fields'), hrests⟩
  | _ => cases hkind

theorem readsBack (hnumbers : NumberTexts numbers) :
    ∀ value, ReadsBack numbers keys value :=
  Json.Hereditary.holds
    { null := by
        intro hover value' hover' rest rest' _ _ h
        have hkind := kind_eq hnumbers hover hover' h
        cases value' with
        | null => exact ⟨.null, List.append_cancel_left h⟩
        | _ => cases hkind
      bool := reads_bool hnumbers
      num := reads_num hnumbers
      str := reads_str hnumbers
      arr := fun _ => reads_arr hnumbers
      obj := fun _ => reads_obj hnumbers }

/-- Values with one text are the same up to the order of keys. -/
theorem same_of_canonicalJson_eq (hnumbers : NumberTexts numbers) {value value' : Json}
    (hover : value.Over numbers keys) (hover' : value'.Over numbers keys)
    (h : canonicalJson value = canonicalJson value') : value.Same value' := by
  have htexts : canonicalChars value ++ [] = canonicalChars value' ++ [] := by
    simp [canonicalChars, h]
  exact (readsBack hnumbers value hover value' hover' [] [] (by simp) (by simp) htexts).1

/-! ## The order of the locale -/

/-- What a sort needs of `localeCompare`. -/
structure LocaleOrder : Prop where
  total : ∀ key key', Platform.localeLe key key' = true ∨ Platform.localeLe key' key = true
  trans : ∀ key key' key'', Platform.localeLe key key' = true →
    Platform.localeLe key' key'' = true → Platform.localeLe key key'' = true

/-- The order of the locale tells the keys apart. -/
def Separates (keys : String → Prop) : Prop :=
  ∀ key key', keys key → keys key' → Platform.localeLe key key' = true →
    Platform.localeLe key' key = true → key = key'

/-- Entries in any order are sorted in one way, where the order tells their keys apart. -/
theorem sortFields_eq (horder : LocaleOrder) {fields fields' : List (String × Json)}
    (hnodup : (fields.map (·.1)).Nodup) (hseparates : Separates (· ∈ fields.map (·.1)))
    (hperm : fields.Perm fields') : sortFields fields = sortFields fields' := by
  let ordered : String × Json → String × Json → Prop := fun left right =>
    Platform.localeLe left.1 right.1 = true
  have htotal : Std.Total ordered := ⟨fun left right => horder.total left.1 right.1⟩
  have htrans : IsTrans _ ordered := ⟨fun left middle right => horder.trans _ _ _⟩
  have hanti : ∀ left right, left ∈ sortFields fields → right ∈ sortFields fields' →
      ordered left right → ordered right left → left = right := by
    intro left right hleft hright hle hge
    have hl := (perm_sortFields fields).mem_iff.mp hleft
    have hr := hperm.mem_iff.mpr ((perm_sortFields fields').mem_iff.mp hright)
    have hkey := hseparates left.1 right.1 (List.mem_map_of_mem hl) (List.mem_map_of_mem hr)
      hle hge
    exact List.inj_on_of_nodup_map hnodup hl hr hkey
  have hsorted : (sortFields fields).Perm (sortFields fields') :=
    (perm_sortFields fields).trans (hperm.trans (perm_sortFields fields').symm)
  exact hsorted.eq_of_pairwise hanti (List.pairwise_insertionSort ordered fields)
    (List.pairwise_insertionSort ordered fields')

/-- Fields that are the same one by one have the same texts. -/
theorem canonicalFields_eq_of_same {fields fields' : List (String × Json)}
    (hfields : ∀ field ∈ fields, ∀ value, field.2.Same value →
      canonicalJson field.2 = canonicalJson value)
    (h : List.Forall₂ Json.SameField fields fields') :
    canonicalFields fields = canonicalFields fields' := by
  rw [canonicalFields_eq, canonicalFields_eq]
  induction h with
  | nil => rfl
  | @cons field field' fields fields' hfirst _ ih =>
    have htext := hfields field List.mem_cons_self field'.2 hfirst.2
    have hrest := ih fun other hother => hfields other (List.mem_cons_of_mem _ hother)
    rw [List.map_cons, List.map_cons, hrest, hfirst.1, htext]

theorem canonicalEntries_eq_of_same {entries entries' : List Json}
    (hentries : ∀ entry ∈ entries, ∀ value, entry.Same value →
      canonicalJson entry = canonicalJson value)
    (h : List.Forall₂ Json.Same entries entries') :
    entries.map canonicalJson = entries'.map canonicalJson := by
  induction h with
  | nil => rfl
  | @cons entry entry' entries entries' hfirst _ ih =>
    have hrest := ih fun other hother => hentries other (List.mem_cons_of_mem _ hother)
    rw [List.map_cons, List.map_cons, hrest, hentries entry List.mem_cons_self entry' hfirst]

/-- Objects in any order of their keys have one text. -/
theorem canonicalJson_obj_of_same (horder : LocaleOrder) {fields ordered fields' : Record}
    (hnodup : (fields.map (·.1)).Nodup) (hseparates : Separates (· ∈ fields.map (·.1)))
    (hfields : ∀ field ∈ fields, ∀ value, field.2.Same value →
      canonicalJson field.2 = canonicalJson value)
    (hsame : List.Forall₂ Json.SameField fields ordered) (hperm : ordered.Perm fields') :
    canonicalJson (.obj fields) = canonicalJson (.obj fields') := by
  obtain ⟨hkeys, -⟩ := Json.forall₂_sameField_iff.mp hsame
  calc
    canonicalJson (.obj fields) = canonicalJson (.obj ordered) := by
      simp only [canonicalJson, canonicalFields_eq_of_same hfields hsame]
    _ = canonicalJson (.obj fields') := by
      rw [hkeys] at hnodup hseparates
      have hsorted := sortFields_eq horder hnodup hseparates hperm
      apply String.toList_inj.mp
      have hchars := canonicalChars_obj ordered
      rw [hsorted, ← canonicalChars_obj fields'] at hchars
      exact hchars

/-- Values that are the same up to the order of keys have one text. -/
theorem canonicalJson_eq_of_same (horder : LocaleOrder)
    (hkeys : ∀ list, keys list → list.Nodup ∧ Separates (· ∈ list)) :
    ∀ value : Json, value.Over numbers keys → ∀ value', value.Same value' →
      canonicalJson value = canonicalJson value' :=
  Json.Hereditary.holds
    { null := by
        intro _ value' h
        cases h
        rfl
      bool := by
        intro value _ value' h
        cases h
        rfl
      num := by
        intro value _ value' h
        cases h
        rfl
      str := by
        intro value _ value' h
        cases h
        rfl
      arr := by
        intro entries ih hover value' h
        rw [Json.over_arr] at hover
        cases h with
        | arr hentries =>
          have htexts := canonicalEntries_eq_of_same
            (fun entry hentry => ih entry hentry (hover entry hentry)) hentries
          simp only [canonicalJson, canonicalEntries_eq, htexts]
      obj := by
        intro fields ih hover value' h
        rw [Json.over_obj] at hover
        cases h with
        | obj hnames hvalues hperm =>
          obtain ⟨hnodup, hseparates⟩ := hkeys _ hover.1
          exact canonicalJson_obj_of_same horder hnodup hseparates
            (fun field hfield => ih field hfield (hover.2 field hfield))
            (Json.forall₂_sameField_iff.mpr ⟨hnames, hvalues⟩) hperm }

/-- `canonicalJson` is a key for values up to the order of keys, over keys that the order of the
locale tells apart. -/
theorem canonicalJson_eq_iff_same (hnumbers : NumberTexts numbers) (horder : LocaleOrder)
    (hkeys : ∀ list, keys list → list.Nodup ∧ Separates (· ∈ list)) {value value' : Json}
    (hover : value.Over numbers keys) (hover' : value'.Over numbers keys) :
    canonicalJson value = canonicalJson value' ↔ value.Same value' := by
  constructor
  · exact same_of_canonicalJson_eq hnumbers hover hover'
  · exact canonicalJson_eq_of_same horder hkeys value hover value'

/-- Where the order of the locale is total and tells all keys apart, two values have one text
exactly when they are equal up to the order of keys. -/
theorem canonicalJson_faithful (hnumbers : NumberTexts numbers) (horder : LocaleOrder)
    (hseparates : Separates fun _ => True) {value value' : Json}
    (hover : value.Over numbers List.Nodup) (hover' : value'.Over numbers List.Nodup) :
    canonicalJson value = canonicalJson value' ↔ value.Same value' := by
  apply canonicalJson_eq_iff_same hnumbers horder _ hover hover'
  intro list hnodup
  exact ⟨hnodup, fun key key' _ _ => hseparates key key' trivial trivial⟩

end Texts

namespace CanonicalTextsExample

/-- The order of code points, and two numbers. -/
@[reducible] def platform : Platform :=
  { samplePlatform with numberToString := fun value => if value = 1 then "1" else "2" }

attribute [local instance] platform

theorem localeOrder : LocaleOrder where
  total key key' := (le_total key key').imp decide_eq_true decide_eq_true
  trans _ _ _ h h' :=
    decide_eq_true ((of_decide_eq_true h).trans (of_decide_eq_true h'))

theorem separates (allowed : String → Prop) : Separates allowed := by
  intro key key' _ _ h h'
  exact le_antisymm (of_decide_eq_true h) (of_decide_eq_true h')

/-- The numbers that the documents hold. -/
def oneOrTwo (value : ℚ) : Prop := value = 1 ∨ value = 2

theorem numberTexts : NumberTexts oneOrTwo where
  ne_empty := by
    rintro _ (rfl | rfl) <;> decide
  characters := by
    rintro _ (rfl | rfl) <;> exact List.all_iff_forall_prop.mp (by decide)
  injective := by
    rintro _ _ (rfl | rfl) (rfl | rfl) <;> decide

def document : Json := .obj [("b", .arr [.num 1, .num 2]), ("a", .str "\"")]

def reordered : Json := .obj [("a", .str "\""), ("b", .arr [.num 1, .num 2])]

/-- Two orders of one document. -/
theorem reordered_same :
    canonicalJson document = canonicalJson reordered ↔ document.Same reordered := by
  apply canonicalJson_faithful numberTexts localeOrder (separates _)
  · simp [document, oneOrTwo]
  · simp [reordered, oneOrTwo]

end CanonicalTextsExample

end Realmroot
