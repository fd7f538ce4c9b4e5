import Realmroot.CanonicalTexts

/-!
# Lists of details as multisets

The comparisons of lists of authorization details count the canonical texts. They count the
details up to the order of keys as long as no object has two keys between which the order of the
locale makes no difference: the sort leaves such keys in the order in which it finds them.
-/

namespace Realmroot

namespace Json

/-! ## Equality up to the order of keys -/

theorem Same.refl : ∀ value : Json, value.Same value :=
  Hereditary.holds
    { null := .null
      bool := .bool
      num := .num
      str := .str
      arr := fun entries h => .arr (List.forall₂_same.mpr h)
      obj := by
        intro fields h
        have hfields : List.Forall₂ SameField fields fields :=
          List.forall₂_same.mpr fun field hfield => ⟨rfl, h field hfield⟩
        exact .of_perm (List.Perm.refl _) hfields (List.Perm.refl _) }

/-- A relation between the members of two lists, the other way round. -/
theorem forall₂_swap {α : Type} {R : α → α → Prop} {xs ys : List α}
    (hswap : ∀ x ∈ xs, ∀ y, R x y → R y x) (h : List.Forall₂ R xs ys) : List.Forall₂ R ys xs := by
  induction h with
  | nil => exact .nil
  | @cons x y xs ys hfirst _ ih =>
    exact .cons (hswap x List.mem_cons_self y hfirst)
      (ih fun z hz => hswap z (List.mem_cons_of_mem _ hz))

theorem forall₂_chain {α : Type} {R : α → α → Prop} {xs ys zs : List α}
    (htrans : ∀ x ∈ xs, ∀ y z, R x y → R y z → R x z) (h : List.Forall₂ R xs ys)
    (h' : List.Forall₂ R ys zs) : List.Forall₂ R xs zs := by
  induction h generalizing zs with
  | nil =>
    cases h'
    exact .nil
  | @cons x y xs ys hfirst _ ih =>
    cases h' with
    | cons hsecond hrest =>
      exact .cons (htrans x List.mem_cons_self _ _ hfirst hsecond)
        (ih (fun z hz => htrans z (List.mem_cons_of_mem _ hz)) hrest)

theorem Same.symm_all : ∀ value : Json, ∀ value', value.Same value' → value'.Same value :=
  Hereditary.holds
    { null := by
        intro value' h
        cases h
        exact .null
      bool := by
        intro value value' h
        cases h
        exact .bool _
      num := by
        intro value value' h
        cases h
        exact .num _
      str := by
        intro value value' h
        cases h
        exact .str _
      arr := by
        intro entries ih value' h
        cases h with
        | arr hentries => exact .arr (forall₂_swap ih hentries)
      obj := by
        intro fields ih value' h
        cases h with
        | obj hkeys hvalues hperm =>
          have hfields := forall₂_sameField_iff.mpr ⟨hkeys, hvalues⟩
          have hback := forall₂_swap
            (fun field hfield other hsame => ⟨hsame.1.symm, ih field hfield _ hsame.2⟩) hfields
          exact .of_perm hperm.symm hback (List.Perm.refl _) }

theorem Same.symm {value value' : Json} (h : value.Same value') : value'.Same value :=
  Same.symm_all value value' h

theorem Same.trans_all : ∀ value : Json, ∀ value' value'', value.Same value' →
    value'.Same value'' → value.Same value'' :=
  Hereditary.holds
    { null := by
        intro value' value'' h h'
        cases h
        exact h'
      bool := by
        intro value value' value'' h h'
        cases h
        exact h'
      num := by
        intro value value' value'' h h'
        cases h
        exact h'
      str := by
        intro value value' value'' h h'
        cases h
        exact h'
      arr := by
        intro entries ih value' value'' h h'
        cases h with
        | arr hentries =>
          cases h' with
          | arr hentries' => exact .arr (forall₂_chain ih hentries hentries')
      obj := by
        intro fields ih value' value'' h h'
        cases h with
        | obj hkeys hvalues hperm =>
          cases h' with
          | obj hkeys' hvalues' hperm' =>
            have hfields := forall₂_sameField_iff.mpr ⟨hkeys, hvalues⟩
            have hfields' := forall₂_sameField_iff.mpr ⟨hkeys', hvalues'⟩
            obtain ⟨middle, hmiddle, hrest⟩ := List.perm_comp_forall₂ hperm hfields'
            have hchain := forall₂_chain (fun field hfield other last hsame hsame' =>
              ⟨hsame.1.trans hsame'.1, ih field hfield _ _ hsame.2 hsame'.2⟩) hfields hmiddle
            exact .of_perm (List.Perm.refl _) hchain (hrest.trans hperm') }

theorem Same.trans {value value' value'' : Json} (h : value.Same value')
    (h' : value'.Same value'') : value.Same value'' :=
  Same.trans_all value value' value'' h h'

end Json

/-! ## Counting details -/

open Classical in
/-- How often the detail occurs among the details, up to the order of keys. -/
noncomputable def occurrences (detail : AuthorizationDetail)
    (details : List AuthorizationDetail) : ℕ :=
  details.countP fun other => (Json.obj other).Same (.obj detail)

theorem occurrences_congr {detail detail' : AuthorizationDetail}
    (h : (Json.obj detail).Same (.obj detail')) (details : List AuthorizationDetail) :
    occurrences detail details = occurrences detail' details := by
  apply List.countP_congr
  intro other _
  simp only [decide_eq_true_eq]
  exact ⟨fun hother => hother.trans h, fun hother => hother.trans h.symm⟩

/-- A detail that occurs is the same as a member. -/
theorem exists_of_occurrences_pos {detail : AuthorizationDetail}
    {details : List AuthorizationDetail} (h : 0 < occurrences detail details) :
    ∃ member ∈ details, (Json.obj member).Same (.obj detail) := by
  obtain ⟨member, hmember, hsame⟩ := List.countP_pos_iff.mp h
  exact ⟨member, hmember, by simpa using hsame⟩

section Comparisons

variable [Platform] {requested allowed details : List AuthorizationDetail}

omit [Platform] in
theorem takeEach_iff (texts remaining : List String) :
    takeEach texts remaining = true ↔ texts.Subperm remaining := by
  induction texts generalizing remaining with
  | nil => simp [takeEach]
  | cons text texts ih =>
    rw [takeEach, Bool.and_eq_true, List.contains_iff_mem, ih]
    constructor
    · rintro ⟨hmem, hrest⟩
      exact ((List.subperm_cons text).mpr hrest).trans (List.perm_cons_erase hmem).symm.subperm
    · intro h
      have hmem : text ∈ remaining := h.subset List.mem_cons_self
      refine ⟨hmem, ?_⟩
      have hcons := h.trans (List.perm_cons_erase hmem).subperm
      exact (List.subperm_cons text).mp hcons

omit [Platform] in
theorem sortStrings_eq_iff {texts texts' : List String} :
    sortStrings texts = sortStrings texts' ↔ texts.Perm texts' := by
  constructor
  · intro h
    have hleft := List.perm_insertionSort (· ≤ ·) texts
    have hright := List.perm_insertionSort (· ≤ ·) texts'
    have hsame : (texts.insertionSort (· ≤ ·)).Perm (texts'.insertionSort (· ≤ ·)) := by
      have heq : texts.insertionSort (· ≤ ·) = texts'.insertionSort (· ≤ ·) := h
      rw [heq]
    exact hleft.symm.trans (hsame.trans hright)
  · intro h
    have hsorted : (sortStrings texts).Perm (sortStrings texts') :=
      (List.perm_insertionSort _ _).trans (h.trans (List.perm_insertionSort _ _).symm)
    exact hsorted.eq_of_pairwise (fun _ _ _ _ => le_antisymm)
      (List.pairwise_insertionSort (· ≤ ·) texts) (List.pairwise_insertionSort (· ≤ ·) texts')

theorem isAuthorizationDetailsSubset_iff :
    isAuthorizationDetailsSubset requested allowed = true ↔
      (requested.map canonicalDetail).Subperm (allowed.map canonicalDetail) :=
  takeEach_iff _ _

theorem exactAuthorizationDetails_iff :
    exactAuthorizationDetails requested allowed = true ↔
      (requested.map canonicalDetail).Perm (allowed.map canonicalDetail) := by
  simp only [exactAuthorizationDetails, Bool.and_eq_true, decide_eq_true_eq, sortStrings_eq_iff]
  exact ⟨fun h => h.2, fun h => ⟨by simpa using h.length_eq, h⟩⟩

/-! ## Where the texts count the details -/

/-- The comparisons decide inclusion and equality of the lists as multisets up to the order of
keys. -/
structure ComparisonsDecide (requested allowed : List AuthorizationDetail) : Prop where
  subset : isAuthorizationDetailsSubset requested allowed = true ↔
    ∀ detail, occurrences detail requested ≤ occurrences detail allowed
  exact : exactAuthorizationDetails requested allowed = true ↔
    ∀ detail, occurrences detail requested = occurrences detail allowed

variable {numbers : ℚ → Prop} {keys : List String → Prop}

/-- Details with these numbers, whose objects have these lists of keys. -/
def DetailsOver (numbers : ℚ → Prop) (keys : List String → Prop)
    (details : List AuthorizationDetail) : Prop :=
  ∀ detail ∈ details, (Json.obj detail).Over numbers keys

/-- The texts are counted as the details are. -/
theorem count_canonicalDetail (hnumbers : NumberTexts numbers) (horder : LocaleOrder)
    (hkeys : ∀ list, keys list → list.Nodup ∧ Separates (· ∈ list))
    {detail : AuthorizationDetail} (hdetail : (Json.obj detail).Over numbers keys)
    (hdetails : DetailsOver numbers keys details) :
    (details.map canonicalDetail).count (canonicalDetail detail) =
      occurrences detail details := by
  rw [List.count, List.countP_map]
  apply List.countP_congr
  intro other hother
  have hiff := canonicalJson_eq_iff_same hnumbers horder hkeys (hdetails other hother) hdetail
  simpa [canonicalDetail] using hiff

omit [Platform] in
/-- It is enough to count the details that are there. -/
theorem occurrences_le_iff :
    (∀ detail, occurrences detail requested ≤ occurrences detail allowed) ↔
      ∀ detail ∈ requested, occurrences detail requested ≤ occurrences detail allowed := by
  constructor
  · intro h detail _
    exact h detail
  · intro h detail
    rcases Nat.eq_zero_or_pos (occurrences detail requested) with hzero | hpos
    · omega
    · obtain ⟨member, hmember, hsame⟩ := exists_of_occurrences_pos hpos
      have hle := h member hmember
      rw [occurrences_congr hsame, occurrences_congr hsame] at hle
      exact hle

theorem subperm_iff_occurrences (hnumbers : NumberTexts numbers) (horder : LocaleOrder)
    (hkeys : ∀ list, keys list → list.Nodup ∧ Separates (· ∈ list))
    (hrequested : DetailsOver numbers keys requested)
    (hallowed : DetailsOver numbers keys allowed) :
    (requested.map canonicalDetail).Subperm (allowed.map canonicalDetail) ↔
      ∀ detail, occurrences detail requested ≤ occurrences detail allowed := by
  rw [List.subperm_ext_iff, List.forall_mem_map, occurrences_le_iff]
  apply forall₂_congr
  intro detail hdetail
  have hover := hrequested detail hdetail
  rw [count_canonicalDetail hnumbers horder hkeys hover hrequested,
    count_canonicalDetail hnumbers horder hkeys hover hallowed]

/-- Where the keys of every object are told apart, the comparisons decide. -/
theorem comparisonsDecide (hnumbers : NumberTexts numbers) (horder : LocaleOrder)
    (hkeys : ∀ list, keys list → list.Nodup ∧ Separates (· ∈ list))
    (hrequested : DetailsOver numbers keys requested)
    (hallowed : DetailsOver numbers keys allowed) : ComparisonsDecide requested allowed where
  subset := by
    rw [isAuthorizationDetailsSubset_iff]
    exact subperm_iff_occurrences hnumbers horder hkeys hrequested hallowed
  exact := by
    have hle := subperm_iff_occurrences hnumbers horder hkeys hrequested hallowed
    have hge := subperm_iff_occurrences hnumbers horder hkeys hallowed hrequested
    rw [exactAuthorizationDetails_iff]
    constructor
    · intro h detail
      exact Nat.le_antisymm (hle.mp h.subperm detail) (hge.mp h.symm.subperm detail)
    · intro h
      exact (hle.mpr fun detail => (h detail).le).antisymm
        (hge.mpr fun detail => (h detail).ge)

/-! ## Where they do not -/

omit [Platform] in
/-- Two members stand in one order only. -/
theorem eq_of_pair_sublist {a b : String} {list : List String} (hnodup : list.Nodup)
    (h : [a, b].Sublist list) (h' : [b, a].Sublist list) : a = b := by
  induction list with
  | nil => cases h
  | cons c list ih =>
    obtain ⟨hc, hrest⟩ := List.nodup_cons.mp hnodup
    rcases List.sublist_cons_iff.mp h with hlater | ⟨r, hr, hfirst⟩
    · rcases List.sublist_cons_iff.mp h' with hlater' | ⟨r', hr', hfirst'⟩
      · exact ih hrest hlater hlater'
      · obtain ⟨rfl, rfl⟩ := List.cons.inj hr'
        exact absurd (hlater.subset (by simp)) hc
    · obtain ⟨rfl, rfl⟩ := List.cons.inj hr
      rcases List.sublist_cons_iff.mp h' with hlater' | ⟨r', hr', -⟩
      · exact absurd (hlater'.subset (by simp)) hc
      · exact (List.cons.inj hr').1.symm

/-- A sort leaves two fields in the order in which it finds them, where the order of the locale
makes no difference between their keys. -/
theorem pair_sublist_sortFields (horder : LocaleOrder) {field other : String × Json}
    {fields : List (String × Json)} (hle : Platform.localeLe field.1 other.1 = true)
    (h : [field, other].Sublist fields) :
    [field.1, other.1].Sublist ((sortFields fields).map (·.1)) := by
  let ordered : String × Json → String × Json → Prop := fun left right =>
    Platform.localeLe left.1 right.1 = true
  have htotal : Std.Total ordered := ⟨fun left right => horder.total left.1 right.1⟩
  have htrans : IsTrans _ ordered := ⟨fun left middle right => horder.trans _ _ _⟩
  have hsorted := List.pair_sublist_insertionSort (r := ordered) hle h
  exact hsorted.map (·.1)

/-- An object whose fields are null. -/
def nullFields (list : List String) : AuthorizationDetail := list.map fun key => (key, .null)

omit [Platform] in
theorem nullFields_over {list : List String} (h : keys list) :
    (Json.obj (nullFields list)).Over numbers keys := by
  rw [Json.over_obj]
  constructor
  · simpa [nullFields, Function.comp_def] using h
  · simp [nullFields, Json.Over]

omit [Platform] in
theorem nullFields_same {list list' : List String} (h : list.Perm list') :
    (Json.obj (nullFields list)).Same (.obj (nullFields list')) := by
  have hfields : List.Forall₂ Json.SameField (nullFields list) (nullFields list) :=
    List.forall₂_same.mpr fun field _ => ⟨rfl, Json.Same.refl field.2⟩
  exact .of_perm (List.Perm.refl _) hfields (h.map _)

/-- Objects with one text list their keys in one order. -/
theorem sorted_keys_eq (hnumbers : NumberTexts numbers) {list list' : List String}
    (hlist : keys list) (hlist' : keys list')
    (h : canonicalDetail (nullFields list) = canonicalDetail (nullFields list')) :
    (sortFields (nullFields list)).map (·.1) = (sortFields (nullFields list')).map (·.1) := by
  have hchars : canonicalChars (.obj (nullFields list)) ++ [] =
      canonicalChars (.obj (nullFields list')) ++ [] := by
    rw [List.append_nil, List.append_nil]
    exact congrArg String.toList h
  have hsame := (reads_fields (fun field _ => readsBack hnumbers field.2)
    (nullFields_over hlist) (nullFields_over hlist') hchars).1
  exact (Json.forall₂_sameField_iff.mp hsame).1

omit [Platform] in
/-- Lists of one detail each count the same, when the details are. -/
theorem singleton_occurrences {detail detail' : AuthorizationDetail}
    (h : (Json.obj detail).Same (.obj detail')) (counted : AuthorizationDetail) :
    occurrences counted [detail] = occurrences counted [detail'] := by
  by_cases hcounted : (Json.obj detail).Same (.obj counted)
  · have hother := h.symm.trans hcounted
    simp [occurrences, hcounted, hother]
  · have hother : ¬ (Json.obj detail').Same (.obj counted) := fun hsame =>
      hcounted (h.trans hsame)
    simp [occurrences, hcounted, hother]

/-- Two keys that the order of the locale does not tell apart, in either order. -/
theorem separates_of_comparisonsDecide (hnumbers : NumberTexts numbers) (horder : LocaleOrder)
    {key key' : String} {list : List String} (hnodup : (key :: key' :: list).Nodup)
    (hle : Platform.localeLe key key' = true) (hge : Platform.localeLe key' key = true)
    (hkeys : keys (key :: key' :: list)) (hkeys' : keys (key' :: key :: list))
    (hdecide : ComparisonsDecide [nullFields (key :: key' :: list)]
      [nullFields (key' :: key :: list)]) : key = key' := by
  have hsame : (Json.obj (nullFields (key :: key' :: list))).Same
      (.obj (nullFields (key' :: key :: list))) := nullFields_same (List.Perm.swap _ _ _)
  have hsubset := isAuthorizationDetailsSubset_iff.mp
    (hdecide.subset.mpr fun detail => (singleton_occurrences hsame detail).le)
  have htext : canonicalDetail (nullFields (key :: key' :: list)) =
      canonicalDetail (nullFields (key' :: key :: list)) := by
    simpa using hsubset
  have hkeysEq := sorted_keys_eq hnumbers hkeys hkeys' htext
  have hfirst : [key, key'].Sublist ((sortFields (nullFields (key :: key' :: list))).map (·.1)) :=
    @pair_sublist_sortFields _ horder (key, .null) (key', .null) _ hle
      (by simp [nullFields])
  have hsecond : [key', key].Sublist
      ((sortFields (nullFields (key' :: key :: list))).map (·.1)) :=
    @pair_sublist_sortFields _ horder (key', .null) (key, .null) _ hge
      (by simp [nullFields])
  rw [← hkeysEq] at hsecond
  have hsorted : ((sortFields (nullFields (key :: key' :: list))).map (·.1)).Nodup := by
    have hperm := (perm_sortFields (nullFields (key :: key' :: list))).map (·.1)
    rw [hperm.nodup_iff]
    simpa [nullFields, Function.comp_def] using hnodup
  exact eq_of_pair_sublist hsorted hfirst hsecond

/-- The comparisons decide all lists of details over some lists of keys, and the inclusion is an
order up to equality. -/
structure ComparisonsExact (numbers : ℚ → Prop) (keys : List String → Prop) : Prop where
  decide : ∀ requested allowed, DetailsOver numbers keys requested →
    DetailsOver numbers keys allowed → ComparisonsDecide requested allowed
  refl : ∀ details, isAuthorizationDetailsSubset details details = true
  trans : ∀ requested middle allowed, isAuthorizationDetailsSubset requested middle = true →
    isAuthorizationDetailsSubset middle allowed = true →
      isAuthorizationDetailsSubset requested allowed = true
  antisymm : ∀ left right, isAuthorizationDetailsSubset left right = true →
    isAuthorizationDetailsSubset right left = true → exactAuthorizationDetails left right = true

/-- The comparisons are exact over some lists of keys exactly when the order of the locale tells
the keys of each of these lists apart. -/
theorem comparisons_exact_iff (hnumbers : NumberTexts numbers) (horder : LocaleOrder)
    (hnodup : ∀ list, keys list → list.Nodup)
    (hperm : ∀ list list', keys list → list.Perm list' → keys list') :
    ComparisonsExact numbers keys ↔ ∀ list, keys list → Separates (· ∈ list) := by
  constructor
  · intro hexact list hlist key key' hkey hkey' hle hge
    by_contra hne
    have hmem : key' ∈ list.erase key := (List.mem_erase_of_ne (Ne.symm hne)).mpr hkey'
    have hsplit : list.Perm (key :: key' :: (list.erase key).erase key') :=
      (List.perm_cons_erase hkey).trans ((List.perm_cons_erase hmem).cons key)
    have hkeys := hperm list _ hlist hsplit
    have hkeys' := hperm _ _ hkeys (List.Perm.swap _ _ _)
    apply hne
    apply separates_of_comparisonsDecide hnumbers horder (hnodup _ hkeys) hle hge hkeys hkeys'
    apply hexact.decide
    · intro detail hdetail
      rw [List.mem_singleton.mp hdetail]
      exact nullFields_over hkeys
    · intro detail hdetail
      rw [List.mem_singleton.mp hdetail]
      exact nullFields_over hkeys'
  · intro hseparates
    exact
      { decide := fun requested allowed =>
          comparisonsDecide hnumbers horder fun list hlist =>
            ⟨hnodup list hlist, hseparates list hlist⟩
        refl := fun details =>
          isAuthorizationDetailsSubset_iff.mpr (List.Subperm.refl _)
        trans := fun requested middle allowed h h' => by
          rw [isAuthorizationDetailsSubset_iff] at *
          exact h.trans h'
        antisymm := fun left right h h' => by
          rw [isAuthorizationDetailsSubset_iff] at h h'
          exact exactAuthorizationDetails_iff.mpr (h.antisymm h') }

end Comparisons

namespace DetailMultisetsExample

open CanonicalTextsExample

section Exact

attribute [local instance] platform

/-- Under the order of code points every list of details is compared exactly. -/
theorem codePoints_exact : ComparisonsExact oneOrTwo List.Nodup :=
  (comparisons_exact_iff numberTexts localeOrder (fun _ h => h)
    (fun _ _ h hperm => hperm.nodup_iff.mp h)).mpr fun _ _ => separates _

end Exact

/-- One letter with an accent, as a letter and a combining accent. -/
def decompose (key : String) : List Char :=
  key.toList.flatMap fun c => if c = Char.ofNat 0xe9 then ['e', Char.ofNat 0x301] else [c]

/-- An order that makes no difference between canonically equivalent keys. -/
@[reducible] def equivalent : Platform :=
  { samplePlatform with
    localeLe := fun key key' => String.ofList (decompose key) ≤ String.ofList (decompose key') }

attribute [local instance] equivalent

def fields (accented : List (String × Json)) : AuthorizationDetail :=
  ("type", .str "payment") :: accented

def composed : String × Json := (String.ofList [Char.ofNat 0xe9], .bool true)

def decomposed : String × Json := (String.ofList ['e', Char.ofNat 0x301], .bool false)

/-- Two orders of the keys of one detail are taken for two details. -/
theorem equivalent_keys_differ :
    ¬ ComparisonsDecide [fields [composed, decomposed]] [fields [decomposed, composed]] := by
  intro hdecide
  have hsubset : isAuthorizationDetailsSubset [fields [composed, decomposed]]
      [fields [decomposed, composed]] = false := by decide +kernel
  have hsame : (Json.obj (fields [composed, decomposed])).Same
      (.obj (fields [decomposed, composed])) := by
    have hfields : List.Forall₂ Json.SameField (fields [composed, decomposed])
        (fields [composed, decomposed]) :=
      List.forall₂_same.mpr fun field _ => ⟨rfl, Json.Same.refl field.2⟩
    exact .of_perm (List.Perm.refl _) hfields ((List.Perm.swap _ _ _).cons _)
  have hcount := hdecide.subset.mpr fun detail => (singleton_occurrences hsame detail).le
  rw [hsubset] at hcount
  cases hcount

end DetailMultisetsExample

end Realmroot
