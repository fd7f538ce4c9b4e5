import Realmroot.Library.LinkHeaders
import Realmroot.RoleTexts
import Realmroot.Usecases.ResourceDiscovery
import Mathlib.Data.List.TakeWhile

/-!
# Service descriptions

A resource names its OpenAPI document in a `Link` header. The header is searched by patterns, not
read by its grammar: a link ends at the first comma, and a parameter begins at any semicolon. The
first link that describes the service is found as long as the quoted values that come before hide
no separator from the grammar that the patterns see.
-/

namespace Realmroot

open AtomicProgram Error LinkHeaders

/-! ## Finding links -/

theorem linkValues_eq_of_le {n m : ℕ} {chars : List Char} (hn : chars.length ≤ n)
    (hm : chars.length ≤ m) : linkValues n chars = linkValues m chars := by
  induction n generalizing m chars with
  | zero =>
    obtain rfl : chars = [] := List.length_eq_zero_iff.mp (by omega)
    cases m <;> rfl
  | succ n ih =>
    cases chars with
    | nil => cases m <;> rfl
    | cons c rest =>
      cases m with
      | zero => simp at hm
      | succ m =>
        simp only [List.length_cons] at hn hm
        have hclosed := (List.dropWhile_suffix (fun c => decide (c ≠ '>')) (l := rest)).length_le
        have htail : (rest.dropWhile fun c => decide (c ≠ '>')).tail.length ≤ rest.length := by
          rw [List.length_tail]
          omega
        have hrest := (List.dropWhile_suffix (fun c => decide (c ≠ ','))
          (l := (rest.dropWhile fun c => decide (c ≠ '>')).tail)).length_le
        simp only [linkValues]
        split_ifs
        · rw [ih (m := m) (by omega) (by omega)]
        · exact ih (by omega) (by omega)

/-- The links that a text is seen to hold. -/
def seenLinks (chars : List Char) : List (List Char × List Char) :=
  linkValues chars.length chars

theorem seenLinks_cons (c : Char) (rest : List Char) :
    seenLinks (c :: rest) =
      if c = '<' ∧ rest.takeWhile (· ≠ '>') ≠ [] ∧ rest.dropWhile (· ≠ '>') ≠ [] then
        (rest.takeWhile (· ≠ '>'), (rest.dropWhile (· ≠ '>')).tail.takeWhile (· ≠ ',')) ::
          seenLinks ((rest.dropWhile (· ≠ '>')).tail.dropWhile (· ≠ ','))
      else seenLinks rest := by
  have hclosed := (List.dropWhile_suffix (fun c => decide (c ≠ '>')) (l := rest)).length_le
  have hrest := (List.dropWhile_suffix (fun c => decide (c ≠ ','))
    (l := (rest.dropWhile fun c => decide (c ≠ '>')).tail)).length_le
  rw [List.length_tail] at hrest
  rw [seenLinks, List.length_cons, linkValues]
  congr 2
  exact linkValues_eq_of_le (by omega) le_rfl

theorem seenLinks_append {skipped : List Char} (h : '<' ∉ skipped) (rest : List Char) :
    seenLinks (skipped ++ rest) = seenLinks rest := by
  induction skipped with
  | nil => rfl
  | cons c skipped ih =>
    rw [List.mem_cons, not_or] at h
    rw [List.cons_append, seenLinks_cons, if_neg fun hc => h.1 hc.1.symm, ih h.2]

theorem seenLinks_target {target : List Char} (hne : target ≠ []) (h : '>' ∉ target)
    (rest : List Char) :
    seenLinks ('<' :: (target ++ '>' :: rest)) =
      (target, rest.takeWhile (· ≠ ',')) :: seenLinks (rest.dropWhile (· ≠ ',')) := by
  have hpos : ∀ c ∈ target, decide (c ≠ '>') = true := fun c hc =>
    decide_eq_true fun heq => h (heq ▸ hc)
  have htake : (target ++ '>' :: rest).takeWhile (· ≠ '>') = target := by
    rw [List.takeWhile_append_of_pos hpos]
    simp
  have hdrop : (target ++ '>' :: rest).dropWhile (· ≠ '>') = '>' :: rest := by
    rw [List.dropWhile_append_of_pos hpos]
    simp
  rw [seenLinks_cons, htake, hdrop, if_pos ⟨rfl, hne, by simp⟩]
  rfl

theorem seenLinks_empty (rest : List Char) :
    seenLinks ('<' :: '>' :: rest) = seenLinks rest := by
  rw [seenLinks_cons, if_neg (by simp)]
  exact @seenLinks_append ['>'] (by decide) rest

/-! ## Characters -/

theorem toNat_bounds_of_isTokenCharacter {c : Char} (h : isTokenCharacter c = true) :
    33 ≤ c.toNat ∧ c.toNat ≤ 126 := by
  simp only [isTokenCharacter, Bool.or_eq_true, Bool.and_eq_true, decide_eq_true_eq] at h
  omega

theorem isWhiteSpace_cases {c : Char} (h : isWhiteSpace c = true) (hle : c.toNat ≤ 255) :
    isBlank c = true ∨ c = '\u00a0' ∨ (10 ≤ c.toNat ∧ c.toNat ≤ 13) := by
  have hnat : c.val.toNat = c.toNat := rfl
  simp only [isWhiteSpace, Bool.or_eq_true, Bool.and_eq_true, decide_eq_true_eq, List.mem_cons,
    List.not_mem_nil, or_false, UInt32.le_iff_toNat_le, ← UInt32.toNat_inj] at h
  simp at h
  have hchar : ∀ d : Char, c.toNat = d.toNat → c = d := fun d hd =>
    Char.ext (UInt32.toNat_inj.mp hd)
  by_cases hblank : c.toNat = 9 ∨ c.toNat = 32
  · left
    rcases hblank with h | h
    · rw [hchar '\t' h]
      rfl
    · rw [hchar ' ' h]
      rfl
  by_cases hspace : c.toNat = 160
  · exact Or.inr (Or.inl (hchar '\u00a0' hspace))
  · omega

theorem isWhiteSpace_of_isBlank {c : Char} (h : isBlank c = true) : isWhiteSpace c = true := by
  simp only [isBlank, Bool.or_eq_true, decide_eq_true_eq] at h
  rcases h with rfl | rfl <;> decide

theorem isWhiteSpace_of_isTokenCharacter {c : Char} (h : isTokenCharacter c = true) :
    isWhiteSpace c = false := by
  have hbounds := toNat_bounds_of_isTokenCharacter h
  rw [Bool.eq_false_iff]
  intro hspace
  rcases isWhiteSpace_cases hspace (by omega) with hblank | rfl | hcontrol
  · simp only [isBlank, Bool.or_eq_true, decide_eq_true_eq] at hblank
    rcases hblank with rfl | rfl <;> revert h <;> decide
  · revert h
    decide
  · omega

/-! ## Finding the relation -/

/-- `;\s*rel\s*=`, at the start of a text. -/
def opensRelation : List Char → Bool
  | ';' :: rest =>
    match rest.dropWhile isWhiteSpace with
    | r :: e :: l :: rest =>
      r.toLower = 'r' && e.toLower = 'e' && l.toLower = 'l' &&
        (rest.dropWhile isWhiteSpace).head? = some '='
    | _ => false
  | _ => false

theorem opensRelation_of_relationAt {chars : List Char} (h : relationAt chars ≠ none) :
    opensRelation chars = true := by
  unfold relationAt at h
  split at h
  · rename_i rest
    split at h
    · rename_i r e l rest' heq
      split_ifs at h with hrel
      · split at h
        · rename_i rest'' heq'
          simp [opensRelation, heq, heq', hrel]
        · exact absurd rfl h
      · exact absurd rfl h
    · exact absurd rfl h
  · exact absurd rfl h

theorem dropWhile_isWhiteSpace_append_quote (chars rest : List Char) :
    (chars ++ '"' :: rest).dropWhile isWhiteSpace =
      chars.dropWhile isWhiteSpace ++ '"' :: rest := by
  rw [List.dropWhile_append]
  split_ifs with h
  · rw [List.isEmpty_iff.mp h]
    rfl
  · rfl

/-- A quote ends what a pattern reads before the value. -/
theorem opensRelation_append_quote (chars rest : List Char) :
    opensRelation (chars ++ '"' :: rest) = opensRelation chars := by
  cases chars with
  | nil => rfl
  | cons c chars =>
    by_cases hc : c = ';'
    · subst hc
      simp only [List.cons_append, opensRelation, dropWhile_isWhiteSpace_append_quote]
      rcases hdrop : chars.dropWhile isWhiteSpace with - | ⟨r, - | ⟨e, - | ⟨l, more⟩⟩⟩
      · rcases rest with - | ⟨e, - | ⟨l, rest⟩⟩ <;> simp
      · rcases rest with - | ⟨l, rest⟩ <;> simp
      · simp
      · simp only [List.cons_append, dropWhile_isWhiteSpace_append_quote]
        cases more.dropWhile isWhiteSpace with
        | nil => simp
        | cons d more => simp
    · unfold opensRelation
      split
      · rename_i heq
        exact absurd (List.cons.inj heq).1 hc
      · split
        · rename_i heq
          exact absurd (List.cons.inj heq).1 hc
        · rfl

/-- What begins a relation in a part of a text begins it in the text. -/
theorem opensRelation_append {chars : List Char} (h : opensRelation chars = true)
    (rest : List Char) : opensRelation (chars ++ rest) = true := by
  unfold opensRelation at h
  split at h
  · rename_i chars
    split at h
    · rename_i r e l more heq
      have hdrop : (chars ++ rest).dropWhile isWhiteSpace = r :: e :: l :: (more ++ rest) := by
        rw [List.dropWhile_append, heq]
        rfl
      simp only [Bool.and_eq_true, decide_eq_true_eq] at h
      have hequals : ((more ++ rest).dropWhile isWhiteSpace).head? = some '=' := by
        rw [List.dropWhile_append, if_neg, List.head?_append, h.2]
        · rfl
        · intro hempty
          rw [List.isEmpty_iff.mp hempty] at h
          simp at h
      simp [opensRelation, hdrop, h.1, hequals]
    · exact absurd h (by simp)
  · exact absurd h (by simp)

/-- The first relation that a text is seen to give. -/
def seenRelation (chars : List Char) : Option (List Char) := chars.tails.findSome? relationAt

theorem seenRelation_cons (c : Char) (rest : List Char) :
    seenRelation (c :: rest) = (relationAt (c :: rest)).or (seenRelation rest) := by
  rw [seenRelation, List.tails_cons, List.findSome?_cons]
  cases relationAt (c :: rest) <;> rfl

theorem seenRelation_append {skipped : List Char} (h : ';' ∉ skipped) (rest : List Char) :
    seenRelation (skipped ++ rest) = seenRelation rest := by
  induction skipped with
  | nil => rfl
  | cons c skipped ih =>
    rw [List.mem_cons, not_or] at h
    have hnone : relationAt (c :: (skipped ++ rest)) = none := by
      unfold relationAt
      split
      · rename_i heq
        exact absurd (List.cons.inj heq).1.symm h.1
      · rfl
    rw [List.cons_append, seenRelation_cons, hnone, ih h.2]
    rfl

/-- Nothing in a text begins a relation. -/
def Silent (chars : List Char) : Prop := ∀ tail ∈ chars.tails, opensRelation tail = false

instance (chars : List Char) : Decidable (Silent chars) :=
  inferInstanceAs (Decidable (∀ tail ∈ chars.tails, opensRelation tail = false))

theorem silent_cons {c : Char} {chars : List Char} :
    Silent (c :: chars) ↔ opensRelation (c :: chars) = false ∧ Silent chars := by
  simp [Silent]

theorem Silent.left {chars rest : List Char} (h : Silent (chars ++ rest)) : Silent chars := by
  intro tail htail
  obtain ⟨front, rfl⟩ := (List.mem_tails _ _).mp htail
  rw [Bool.eq_false_iff]
  intro hopens
  have hfull := h (tail ++ rest) ((List.mem_tails _ _).mpr ⟨front, by simp⟩)
  rw [opensRelation_append hopens] at hfull
  exact absurd hfull (by simp)

theorem Silent.right {chars rest : List Char} (h : Silent (chars ++ rest)) : Silent rest := by
  intro tail htail
  obtain ⟨front, rfl⟩ := (List.mem_tails _ _).mp htail
  exact h tail ((List.mem_tails _ _).mpr ⟨chars ++ front, by simp⟩)

theorem seenRelation_of_silent {chars : List Char} (h : Silent chars) :
    seenRelation chars = none := by
  rw [seenRelation, List.findSome?_eq_none_iff]
  intro tail htail
  by_contra hsome
  have hopens := opensRelation_of_relationAt hsome
  rw [h tail htail] at hopens
  exact absurd hopens (by simp)

/-- The search passes over a quoted text in which nothing begins a relation. -/
theorem seenRelation_quoted {chars : List Char} (h : Silent chars) (rest : List Char) :
    seenRelation (chars ++ '"' :: rest) = seenRelation rest := by
  induction chars with
  | nil => exact @seenRelation_append ['"'] (by decide) rest
  | cons c chars ih =>
    rw [silent_cons] at h
    have hnone : relationAt (c :: (chars ++ '"' :: rest)) = none := by
      by_contra hsome
      have hopens := opensRelation_of_relationAt hsome
      rw [← List.cons_append, opensRelation_append_quote, h.1] at hopens
      exact absurd hopens (by simp)
    rw [List.cons_append, seenRelation_cons, hnone, ih h.2]
    rfl

/-! ## Parameters -/

theorem not_mem_blanks {c : Char} (hc : isBlank c = false) (blanks : Text isBlank) :
    c ∉ blanks.val := by
  intro hmem
  rw [blanks.property c hmem] at hc
  exact absurd hc (by simp)

theorem dropWhile_blanks (blanks : Text isBlank) (rest : List Char) :
    (blanks.val ++ rest).dropWhile isWhiteSpace = rest.dropWhile isWhiteSpace :=
  List.dropWhile_append_of_pos fun c hc => isWhiteSpace_of_isBlank (blanks.property c hc)

/-- What follows the name or the value of a parameter. -/
def Boundary (rest : List Char) : Prop :=
  ∃ (blanks : Text isBlank) (more : List Char), rest = blanks.val ++ more ∧
    (more = [] ∨ ∃ more', more = ';' :: more')

theorem Boundary.stops {c : Char} {rest : List Char} (h : Boundary (c :: rest)) :
    isBlank c = true ∨ c = ';' := by
  obtain ⟨⟨blanks, hblanks⟩, more, heq, hmore⟩ := h
  cases blanks with
  | nil =>
    rcases hmore with rfl | ⟨more', rfl⟩
    · simp at heq
    · exact Or.inr (List.cons.inj heq).1
  | cons b blanks =>
    rw [(List.cons.inj heq).1]
    exact Or.inl (hblanks b (by simp))

theorem Boundary.head_dropWhile {rest : List Char} (h : Boundary rest) :
    (rest.dropWhile isWhiteSpace).head? ≠ some '=' := by
  obtain ⟨blanks, more, rfl, rfl | ⟨more', rfl⟩⟩ := h
  · rw [dropWhile_blanks]
    simp
  · have hsemicolon : isWhiteSpace ';' = false := by decide
    rw [dropWhile_blanks, List.dropWhile_cons, hsemicolon]
    simp

/-- What the pattern makes of the text after the name `rel`. -/
def assignedRelation (rest : List Char) : Option (List Char) :=
  match rest.dropWhile isWhiteSpace with
  | '=' :: rest => relationValue (rest.dropWhile isWhiteSpace)
  | _ => none

/-- The pattern reads the name of a parameter as the grammar does. -/
theorem relationAt_parameter (p : Parameter) {rest : List Char}
    (hrest : ∀ c ∈ rest.head?, isBlank c = true ∨ c = ';' ∨ c = '=') :
    relationAt (';' :: (p.after.val ++ (p.name.chars ++ rest))) =
      if p.isNamed "rel" then assignedRelation rest else none := by
  obtain ⟨c, name, hname⟩ := List.exists_cons_of_ne_nil p.name.nonempty
  have hvalid := p.name.valid
  have hspace : isWhiteSpace c = false :=
    isWhiteSpace_of_isTokenCharacter (hvalid c (by simp [hname]))
  have hdrop : (p.after.val ++ (p.name.chars ++ rest)).dropWhile isWhiteSpace =
      p.name.chars ++ rest := by
    rw [dropWhile_blanks, hname, List.cons_append, List.dropWhile_cons, hspace]
    rfl
  have hnamed : p.isNamed "rel" = decide (p.name.chars.map Char.toLower = ['r', 'e', 'l']) := rfl
  have hlower : ∀ d, d ∈ rest.head? → d.toLower ≠ 'e' ∧ d.toLower ≠ 'l' := by
    intro d hd
    have hstop := hrest d hd
    simp only [isBlank, Bool.or_eq_true, decide_eq_true_eq] at hstop
    rcases hstop with (rfl | rfl) | rfl | rfl <;> decide
  rw [relationAt, hdrop, hnamed]
  rcases hchars : p.name.chars with - | ⟨r, - | ⟨e, - | ⟨l, - | ⟨d, more⟩⟩⟩⟩
  · exact absurd hchars p.name.nonempty
  · rcases rest with - | ⟨e, - | ⟨l, rest⟩⟩ <;> simp
    intro _ he
    exact absurd he (hlower e (by simp)).1
  · rcases rest with - | ⟨l, rest⟩ <;> simp
    intro _ _ hl
    exact absurd hl (hlower l (by simp)).2
  · simp
    rfl
  · have hspace : isWhiteSpace d = false :=
      isWhiteSpace_of_isTokenCharacter (hvalid d (by simp [hchars]))
    have hequals : d ≠ '=' := by
      rintro rfl
      have htoken := hvalid '=' (by simp [hchars])
      revert htoken
      decide
    have hnext : (d :: (more ++ rest)).dropWhile isWhiteSpace = d :: (more ++ rest) := by
      rw [List.dropWhile_cons, hspace]
      rfl
    simp [hnext, hequals]

/-! ## Values -/

/-- A parameter written up to its value, which may be cut. -/
def opened (p : Parameter) (a : Assignment) (body : List Char) : List Char :=
  p.before.val ++ ';' :: (p.after.val ++ (p.name.chars ++
    (a.before.val ++ '=' :: (a.after.val ++ body))))

theorem written_eq_opened {p : Parameter} {a : Assignment} (h : p.assignment = some a) :
    p.written = opened p a a.value.written := by
  simp [Parameter.written, Parameter.assigned, opened, Assignment.written, h]

theorem not_mem_name {c : Char} (hc : isTokenCharacter c = false) (p : Parameter) :
    c ∉ p.name.chars := by
  intro hmem
  rw [p.name.valid c hmem] at hc
  exact absurd hc (by simp)

theorem seenRelation_blanks (blanks : Text isBlank) (rest : List Char) :
    seenRelation (blanks.val ++ rest) = seenRelation rest :=
  seenRelation_append (not_mem_blanks (by decide) blanks) rest

theorem seenRelation_name (p : Parameter) (rest : List Char) :
    seenRelation (p.name.chars ++ rest) = seenRelation rest :=
  seenRelation_append (not_mem_name (by decide) p) rest

theorem head_assignment (a : Assignment) (body : List Char) :
    ∀ c ∈ (a.before.val ++ '=' :: (a.after.val ++ body)).head?,
      isBlank c = true ∨ c = ';' ∨ c = '=' := by
  intro c hc
  rw [List.head?_append] at hc
  cases hbefore : a.before.val with
  | nil =>
    rw [hbefore] at hc
    simp only [List.head?_nil, Option.none_or, List.head?_cons, Option.mem_some_iff] at hc
    exact Or.inr (Or.inr hc.symm)
  | cons b blanks =>
    rw [hbefore] at hc
    simp only [List.head?_cons, Option.some_or, Option.mem_some_iff] at hc
    subst hc
    exact Or.inl (a.before.property b (by simp [hbefore]))

/-- A parameter with another name is passed up to its value. -/
theorem seenRelation_opened_other {p : Parameter} (hother : p.isNamed "rel" = false)
    (a : Assignment) (body : List Char) : seenRelation (opened p a body) = seenRelation body := by
  rw [opened, seenRelation_blanks, seenRelation_cons,
    relationAt_parameter p (head_assignment a body), hother, seenRelation_blanks,
    seenRelation_name, seenRelation_blanks]
  have hequals : seenRelation ('=' :: (a.after.val ++ body)) = seenRelation (a.after.val ++ body) :=
    @seenRelation_append ['='] (by decide) _
  simp [hequals, seenRelation_blanks]

/-- The value of a `rel` parameter is what is seen. -/
theorem seenRelation_opened_relation {p : Parameter} (hnamed : p.isNamed "rel" = true)
    {a : Assignment} {body value : List Char} (hbody : ∀ c ∈ body.head?, isWhiteSpace c = false)
    (hvalue : relationValue body = some value) : seenRelation (opened p a body) = some value := by
  have hequals : isWhiteSpace '=' = false := by decide
  have hdrop : body.dropWhile isWhiteSpace = body := by
    cases body with
    | nil => rfl
    | cons c body =>
      rw [List.dropWhile_cons, hbody c (by simp)]
      rfl
  have hassigned :
      assignedRelation (a.before.val ++ '=' :: (a.after.val ++ body)) = some value := by
    rw [assignedRelation, dropWhile_blanks, List.dropWhile_cons, hequals]
    change relationValue ((a.after.val ++ body).dropWhile isWhiteSpace) = some value
    rw [dropWhile_blanks, hdrop, hvalue]
  rw [opened, seenRelation_blanks, seenRelation_cons,
    relationAt_parameter p (head_assignment a body), hnamed, if_pos rfl, hassigned]
  rfl

/-- A parameter without a value is passed. -/
theorem seenRelation_unassigned {p : Parameter} (h : p.assignment = none) {rest : List Char}
    (hrest : Boundary rest) : seenRelation (p.written ++ rest) = seenRelation rest := by
  have hhead : ∀ c ∈ rest.head?, isBlank c = true ∨ c = ';' ∨ c = '=' := by
    intro c hc
    cases rest with
    | nil => simp at hc
    | cons d rest =>
      simp only [List.head?_cons, Option.mem_some_iff] at hc
      subst hc
      rcases hrest.stops with hblank | hsemicolon
      · exact Or.inl hblank
      · exact Or.inr (Or.inl hsemicolon)
  have hassigned : assignedRelation rest = none := by
    unfold assignedRelation
    split
    · rename_i heq
      exact absurd (by rw [heq]; rfl) hrest.head_dropWhile
    · rfl
  have hwritten : p.written ++ rest =
      p.before.val ++ ';' :: (p.after.val ++ (p.name.chars ++ rest)) := by
    simp [Parameter.written, Parameter.assigned, h]
  rw [hwritten, seenRelation_blanks, seenRelation_cons, relationAt_parameter p hhead, hassigned,
    ite_self, seenRelation_blanks, seenRelation_name]
  rfl

/-- A token is read up to its end. -/
theorem relationValue_token (t : Token) {rest : List Char} (hrest : Boundary rest) :
    relationValue (t.chars ++ rest) = some t.chars := by
  have hpos : ∀ c ∈ t.chars, (c ≠ ';' && c ≠ ',' && !isWhiteSpace c) = true := by
    intro c hc
    have hvalid := t.valid c hc
    have hsemicolon : c ≠ ';' := by
      rintro rfl
      exact absurd hvalid (by decide)
    have hcomma : c ≠ ',' := by
      rintro rfl
      exact absurd hvalid (by decide)
    simp [hsemicolon, hcomma, isWhiteSpace_of_isTokenCharacter hvalid]
  have htake : (t.chars ++ rest).takeWhile (fun c => c ≠ ';' && c ≠ ',' && !isWhiteSpace c) =
      t.chars := by
    rw [List.takeWhile_append_of_pos hpos]
    cases rest with
    | nil => simp
    | cons c rest =>
      rcases hrest.stops with hblank | rfl
      · rw [List.takeWhile_cons, if_neg (by simp [isWhiteSpace_of_isBlank hblank]), List.append_nil]
      · simp
  obtain ⟨c, chars, hchars⟩ := List.exists_cons_of_ne_nil t.nonempty
  have hquote : c ≠ '"' := by
    rintro rfl
    exact absurd (t.valid '"' (by simp [hchars])) (by decide)
  unfold relationValue
  simp only [htake, if_neg t.nonempty]
  split
  · rename_i heq
    rw [hchars] at heq
    exact absurd (List.cons.inj heq).1 hquote
  · rfl

theorem relationValue_quoted {chars : List Char} (hne : chars ≠ []) (h : '"' ∉ chars)
    (rest : List Char) : relationValue ('"' :: (chars ++ '"' :: rest)) = some chars := by
  have hpos : ∀ c ∈ chars, decide (c ≠ '"') = true := fun c hc =>
    decide_eq_true fun heq => h (heq ▸ hc)
  have htake : (chars ++ '"' :: rest).takeWhile (· ≠ '"') = chars := by
    rw [List.takeWhile_append_of_pos hpos]
    simp
  have hdrop : (chars ++ '"' :: rest).dropWhile (· ≠ '"') = '"' :: rest := by
    rw [List.dropWhile_append_of_pos hpos]
    simp
  simp only [relationValue, htake, hdrop]
  rw [if_pos ⟨hne, by simp⟩]

/-- A quoted string that is empty or cut is read as a token, with its quote. -/
theorem relationValue_unquoted {rest : List Char}
    (h : rest.takeWhile (· ≠ '"') = [] ∨ rest.dropWhile (· ≠ '"') = []) :
    ∃ chars, relationValue ('"' :: rest) = some ('"' :: chars) ∧
      ∀ c ∈ chars, isWhiteSpace c = false := by
  have hnot : ¬ (rest.takeWhile (· ≠ '"') ≠ [] ∧ rest.dropWhile (· ≠ '"') ≠ []) := by tauto
  have hquote : ('"' ≠ ';' && '"' ≠ ',' && !isWhiteSpace '"') = true := by decide
  refine ⟨rest.takeWhile fun c => c ≠ ';' && c ≠ ',' && !isWhiteSpace c, ?_, ?_⟩
  · simp only [relationValue]
    rw [if_neg hnot, List.takeWhile_cons, if_pos hquote, if_neg (List.cons_ne_nil _ _)]
  · intro c hc
    have hstop := List.mem_takeWhile_imp hc
    simp only [Bool.and_eq_true, Bool.not_eq_true'] at hstop
    exact hstop.2

/-! ## Parameters that are read as written -/

/-- A `rel` parameter with a value. -/
def IsRelation (p : Parameter) : Bool := p.isNamed "rel" && p.assignment.isSome

/-- The parameters before the first `rel` parameter with a value. -/
def leading (v : LinkValue) : List Parameter := v.parameters.takeWhile fun p => !IsRelation p

def relationParameter (v : LinkValue) : Option Parameter := v.parameters.find? IsRelation

/-- The characters of a value are its text, and its words are as the code splits and compares
them. -/
structure Literal (p : Parameter) : Prop where
  unescaped : '\\' ∉ p.assigned
  separated : '\u00a0' ∉ p.content
  lowerCase : ∀ word ∈ Words.words isBlank p.content,
    word.map Char.toLower = "service-desc".toList → word = "service-desc".toList

/-- Nothing before the relation of a link is taken for a relation, and the relation is read as
written. -/
structure Readable (v : LinkValue) : Prop where
  silent : ∀ p ∈ leading v, Silent p.assigned
  assigned : (∃ p ∈ leading v, p.isNamed "rel" = true) → relationParameter v = none
  literal : ∀ p ∈ relationParameter v, Literal p

instance (p : Parameter) : Decidable (Literal p) :=
  decidable_of_iff ('\\' ∉ p.assigned ∧ '\u00a0' ∉ p.content ∧
    ∀ word ∈ Words.words isBlank p.content,
      word.map Char.toLower = "service-desc".toList → word = "service-desc".toList)
    ⟨fun h => ⟨h.1, h.2.1, h.2.2⟩, fun h => ⟨h.unescaped, h.separated, h.lowerCase⟩⟩

instance (v : LinkValue) : Decidable (Readable v) :=
  decidable_of_iff ((∀ p ∈ leading v, Silent p.assigned) ∧
    ((∃ p ∈ leading v, p.isNamed "rel" = true) → relationParameter v = none) ∧
    ∀ p ∈ relationParameter v, Literal p)
    ⟨fun h => ⟨h.1, h.2.1, h.2.2⟩, fun h => ⟨h.silent, h.assigned, h.literal⟩⟩

/-- A relation that is seen describes the service. -/
def Describes (relation : Option (List Char)) : Prop :=
  "service-desc".toList ∈ Words.words isWhiteSpace (relation.getD [])

theorem not_describes_none : ¬ Describes none := by
  simp [Describes, Words.words]

theorem not_describes_quote {chars : List Char} (h : ∀ c ∈ chars, isWhiteSpace c = false) :
    ¬ Describes (some ('"' :: chars)) := by
  have hquote : ∀ c ∈ '"' :: chars, isWhiteSpace c = false := by
    intro c hc
    rcases List.mem_cons.mp hc with rfl | hc
    · decide
    · exact h c hc
  rw [Describes, Option.getD_some, Words.words_of_no_sep (by simp) hquote, List.mem_singleton]
  intro heq
  have hhead := congrArg List.head? heq
  revert hhead
  simp

theorem opened_append (p : Parameter) (a : Assignment) (body rest : List Char) :
    opened p a body ++ rest = opened p a (body ++ rest) := by
  simp [opened]

theorem not_mem_opened {c : Char} (p : Parameter) (a : Assignment) {body : List Char}
    (hblank : isBlank c = false) (htoken : isTokenCharacter c = false) (hsemicolon : c ≠ ';')
    (hequals : c ≠ '=') (hbody : c ∉ body) : c ∉ opened p a body := by
  simp [opened, not_mem_blanks hblank, not_mem_name htoken, hsemicolon, hequals, hbody]

/-- What is written of quoted parts. -/
abbrev rawParts (parts : List QuotedPart) : List Char := parts.flatMap QuotedPart.written

theorem takeWhile_uncut {chars : List Char} (h : ',' ∉ chars) (rest : List Char) :
    (chars ++ rest).takeWhile (· ≠ ',') = chars ++ rest.takeWhile (· ≠ ',') :=
  List.takeWhile_append_of_pos fun _ hc => decide_eq_true fun heq => h (heq ▸ hc)

theorem takeWhile_cut {chars : List Char} (h : ',' ∈ chars) (rest : List Char) :
    (chars ++ rest).takeWhile (· ≠ ',') = chars.takeWhile (· ≠ ',') := by
  rw [List.takeWhile_append, if_neg]
  intro hlength
  have hall := List.takeWhile_eq_self_iff.mp
    ((List.takeWhile_prefix (fun c => decide (c ≠ ',')) (l := chars)).eq_of_length hlength) ',' h
  simp at hall

/-- A comma stands in a quoted string, where it cuts the parameter. -/
theorem exists_of_comma_mem {p : Parameter} (h : ',' ∈ p.written) :
    ∃ a parts, p.assignment = some a ∧ a.value = .quoted parts ∧
      p.written.takeWhile (· ≠ ',') = opened p a ('"' :: (rawParts parts).takeWhile (· ≠ ',')) := by
  cases hassignment : p.assignment with
  | none =>
    have hno : ',' ∉ p.written := by
      simp [Parameter.written, Parameter.assigned, hassignment,
        not_mem_blanks (c := ',') (by decide), not_mem_name (c := ',') (by decide)]
    exact absurd h hno
  | some a =>
    rw [written_eq_opened hassignment] at h ⊢
    have hbody : ',' ∈ a.value.written := by
      by_contra hbody
      exact not_mem_opened p a (by decide) (by decide) (by decide) (by decide) hbody h
    cases hvalue : a.value with
    | token t =>
      rw [hvalue] at hbody
      exact absurd (t.valid ',' hbody) (by decide)
    | quoted parts =>
      rw [hvalue] at hbody
      have hraw : ',' ∈ rawParts parts := by
        simpa [ParameterValue.written] using hbody
      refine ⟨a, parts, rfl, hvalue, ?_⟩
      have hquote : ',' ∉ opened p a ['"'] :=
        not_mem_opened p a (by decide) (by decide) (by decide) (by decide) (by decide)
      have hsplit : opened p a (ParameterValue.quoted parts).written =
          opened p a ['"'] ++ (rawParts parts ++ ['"']) := by
        rw [opened_append]
        rfl
      rw [hsplit, takeWhile_uncut hquote, takeWhile_cut hraw, opened_append]
      rfl

theorem silent_rawParts {p : Parameter} {a : Assignment} {parts : List QuotedPart}
    (hassignment : p.assignment = some a) (hvalue : a.value = .quoted parts)
    (h : Silent p.assigned) : Silent (rawParts parts) := by
  have hassigned : p.assigned =
      (a.before.val ++ '=' :: (a.after.val ++ ['"'])) ++ (rawParts parts ++ ['"']) := by
    simp [Parameter.assigned, hassignment, Assignment.written, hvalue, ParameterValue.written]
  rw [hassigned] at h
  exact h.right.left

theorem isNamed_of_not_isRelation {p : Parameter} {a : Assignment}
    (hassignment : p.assignment = some a) (h : IsRelation p = false) : p.isNamed "rel" = false := by
  simpa [IsRelation, hassignment] using h

/-- A parameter that is no relation and hides none is passed. -/
theorem seenRelation_other {p : Parameter} (hother : IsRelation p = false)
    (hsilent : Silent p.assigned) {rest : List Char} (hrest : Boundary rest) :
    seenRelation (p.written ++ rest) = seenRelation rest := by
  cases hassignment : p.assignment with
  | none => exact seenRelation_unassigned hassignment hrest
  | some a =>
    rw [written_eq_opened hassignment, opened_append,
      seenRelation_opened_other (isNamed_of_not_isRelation hassignment hother)]
    cases hvalue : a.value with
    | token t =>
      refine seenRelation_append ?_ rest
      intro hmem
      exact absurd (t.valid ';' hmem) (by decide)
    | quoted parts =>
      have hwritten : (ParameterValue.quoted parts).written ++ rest =
          ['"'] ++ (rawParts parts ++ '"' :: rest) := by
        simp [ParameterValue.written]
      rw [hwritten, seenRelation_append (by decide),
        seenRelation_quoted (silent_rawParts hassignment hvalue hsilent)]

theorem seenRelation_other_cut {p : Parameter} (hother : IsRelation p = false)
    (hsilent : Silent p.assigned) (hcomma : ',' ∈ p.written) :
    seenRelation (p.written.takeWhile (· ≠ ',')) = none := by
  obtain ⟨a, parts, hassignment, hvalue, hcut⟩ := exists_of_comma_mem hcomma
  have hraw := silent_rawParts hassignment hvalue hsilent
  have hsplit := List.takeWhile_append_dropWhile (p := fun c => decide (c ≠ ','))
    (l := rawParts parts)
  rw [← hsplit] at hraw
  rw [hcut, seenRelation_opened_other (isNamed_of_not_isRelation hassignment hother)]
  have hquote := @seenRelation_append ['"'] (by decide) ((rawParts parts).takeWhile (· ≠ ','))
  rw [List.singleton_append] at hquote
  rw [hquote]
  exact seenRelation_of_silent hraw.left

/-! ## The relation of a link -/

theorem exists_of_isRelation {p : Parameter} (h : IsRelation p = true) :
    p.isNamed "rel" = true ∧ ∃ a, p.assignment = some a := by
  rw [IsRelation, Bool.and_eq_true, Option.isSome_iff_exists] at h
  exact h

/-- Parts without a backslash are the characters that they stand for. -/
theorem rawParts_of_unescaped {parts : List QuotedPart} (h : '\\' ∉ rawParts parts) :
    rawParts parts = parts.map QuotedPart.char ∧
      ∀ c ∈ parts.map QuotedPart.char, isQuotedText c = true := by
  induction parts with
  | nil => exact ⟨rfl, by simp⟩
  | cons part parts ih =>
    rw [rawParts, List.flatMap_cons, List.mem_append, not_or] at h
    obtain ⟨hraw, hchars⟩ := ih h.2
    cases part with
    | text c hc =>
      refine ⟨by rw [rawParts, List.flatMap_cons, ← rawParts, hraw]; rfl, ?_⟩
      intro d hd
      rcases List.mem_cons.mp hd with rfl | hd
      · exact hc
      · exact hchars d hd
    | pair c hc => exact absurd (by simp [QuotedPart.written]) h.1

/-- The words of a literal value are those that the code splits off. -/
theorem words_content {p : Parameter} (h : Literal p) :
    Words.words isWhiteSpace p.content = Words.words isBlank p.content := by
  have hchars : ∀ c ∈ p.content, isTokenCharacter c = true ∨ isQuotedText c = true := by
    have hescaped := h.unescaped
    cases hassignment : p.assignment with
    | none => simp [Parameter.content, hassignment]
    | some a =>
      simp only [Parameter.content, Parameter.assigned, hassignment, Option.map_some,
        Option.getD_some, Assignment.written] at hescaped ⊢
      cases hvalue : a.value with
      | token t => exact fun c hc => Or.inl (t.valid c hc)
      | quoted parts =>
        have hraw : '\\' ∉ rawParts parts := by
          intro hmem
          exact hescaped (by simp [hvalue, ParameterValue.written, hmem])
        exact fun c hc => Or.inr ((rawParts_of_unescaped hraw).2 c hc)
  apply Words.words_congr
  intro c hc
  rw [Bool.eq_iff_iff]
  refine ⟨fun hspace => ?_, isWhiteSpace_of_isBlank⟩
  rcases hchars c hc with htoken | hquoted
  · rw [isWhiteSpace_of_isTokenCharacter htoken] at hspace
    exact absurd hspace (by simp)
  · simp only [isQuotedText, Bool.or_eq_true, Bool.and_eq_true, decide_eq_true_eq] at hquoted
    rcases isWhiteSpace_cases hspace (by omega) with hblank | rfl | hcontrol
    · exact hblank
    · exact absurd hc h.separated
    · omega

/-- What is seen of a relation that is not cut. -/
theorem describes_relation {p : Parameter} (hrelation : IsRelation p = true) (h : Literal p)
    {rest : List Char} (hrest : Boundary rest) :
    Describes (seenRelation (p.written ++ rest)) ↔
      "service-desc".toList ∈ Words.words isBlank p.content := by
  obtain ⟨hnamed, a, hassignment⟩ := exists_of_isRelation hrelation
  rw [← words_content h, written_eq_opened hassignment, opened_append]
  have hcontent : p.content = a.value.chars := by simp [Parameter.content, hassignment]
  rw [hcontent]
  cases hvalue : a.value with
  | token t =>
    have hhead : ∀ c ∈ (t.chars ++ rest).head?, isWhiteSpace c = false := by
      intro c hc
      obtain ⟨d, chars, hchars⟩ := List.exists_cons_of_ne_nil t.nonempty
      rw [hchars, List.cons_append, List.head?_cons, Option.mem_some_iff] at hc
      exact hc ▸ isWhiteSpace_of_isTokenCharacter (t.valid d (by simp [hchars]))
    rw [show (ParameterValue.token t).written = t.chars from rfl,
      seenRelation_opened_relation hnamed hhead (relationValue_token t hrest)]
    rfl
  | quoted parts =>
    have hraw : '\\' ∉ rawParts parts := by
      intro hmem
      exact h.unescaped (by simp [Parameter.assigned, hassignment, Assignment.written, hvalue,
        ParameterValue.written, hmem])
    obtain ⟨hchars, hquoted⟩ := rawParts_of_unescaped hraw
    have hquote : '"' ∉ parts.map QuotedPart.char := by
      intro hmem
      exact absurd (hquoted '"' hmem) (by decide)
    have hwritten : (ParameterValue.quoted parts).written ++ rest =
        '"' :: (parts.map QuotedPart.char ++ '"' :: rest) := by
      simp [ParameterValue.written, ← hchars]
    have hhead : ∀ c ∈ ('"' :: (parts.map QuotedPart.char ++ '"' :: rest)).head?,
        isWhiteSpace c = false := by
      simp only [List.head?_cons, Option.mem_some_iff]
      rintro c rfl
      decide
    rw [hwritten]
    by_cases hempty : parts.map QuotedPart.char = []
    · obtain ⟨chars, hvalue', hspaces⟩ := @relationValue_unquoted
        (parts.map QuotedPart.char ++ '"' :: rest) (Or.inl (by simp [hempty]))
      rw [seenRelation_opened_relation hnamed hhead hvalue']
      have hcharsNil : (ParameterValue.quoted parts).chars = [] := hempty
      rw [hcharsNil]
      simp [not_describes_quote hspaces, Words.words]
    · rw [seenRelation_opened_relation hnamed hhead (relationValue_quoted hempty hquote rest)]
      rfl

theorem not_describes_relation_cut {p : Parameter} (hrelation : IsRelation p = true)
    (h : Literal p) (hcomma : ',' ∈ p.written) :
    ¬ Describes (seenRelation (p.written.takeWhile (· ≠ ','))) := by
  obtain ⟨hnamed, -⟩ := exists_of_isRelation hrelation
  obtain ⟨a, parts, hassignment, hvalue, hcut⟩ := exists_of_comma_mem hcomma
  have hraw : '\\' ∉ rawParts parts := by
    intro hmem
    exact h.unescaped (by simp [Parameter.assigned, hassignment, Assignment.written, hvalue,
      ParameterValue.written, hmem])
  obtain ⟨hchars, hquoted⟩ := rawParts_of_unescaped hraw
  have hunclosed : ((rawParts parts).takeWhile (· ≠ ',')).dropWhile (· ≠ '"') = [] := by
    rw [List.dropWhile_eq_nil_iff]
    intro c hc
    have hmem : c ∈ parts.map QuotedPart.char :=
      hchars ▸ (List.takeWhile_prefix _).subset hc
    refine decide_eq_true ?_
    rintro rfl
    exact absurd (hquoted '"' hmem) (by decide)
  obtain ⟨chars, hvalue', hspaces⟩ := relationValue_unquoted (Or.inr hunclosed)
  have hhead : ∀ c ∈ ('"' :: (rawParts parts).takeWhile (· ≠ ',')).head?,
      isWhiteSpace c = false := by
    simp only [List.head?_cons, Option.mem_some_iff]
    rintro c rfl
    decide
  rw [hcut, seenRelation_opened_relation hnamed hhead hvalue']
  exact not_describes_quote hspaces

/-! ## The parameters of a link -/

/-- What the code takes for the parameters of a link: the text up to the first comma. -/
def visible (parameters : List Parameter) (after : Text isBlank) : List Char :=
  (parameters.flatMap Parameter.written ++ after.val).takeWhile (· ≠ ',')

theorem visible_nil (after : Text isBlank) : visible [] after = after.val := by
  rw [visible, List.flatMap_nil, List.nil_append, List.takeWhile_eq_self_iff]
  intro c hc
  refine decide_eq_true ?_
  rintro rfl
  exact not_mem_blanks (by decide) after hc

theorem visible_uncut {p : Parameter} (h : ',' ∉ p.written) (parameters : List Parameter)
    (after : Text isBlank) :
    visible (p :: parameters) after = p.written ++ visible parameters after := by
  rw [visible, List.flatMap_cons, List.append_assoc, takeWhile_uncut h, visible]

theorem visible_cut {p : Parameter} (h : ',' ∈ p.written) (parameters : List Parameter)
    (after : Text isBlank) :
    visible (p :: parameters) after = p.written.takeWhile (· ≠ ',') := by
  rw [visible, List.flatMap_cons, List.append_assoc, takeWhile_cut h]

theorem boundary_visible (parameters : List Parameter) (after : Text isBlank) :
    Boundary (visible parameters after) := by
  cases parameters with
  | nil => exact ⟨after, [], by simp [visible_nil], Or.inl rfl⟩
  | cons p parameters =>
    have hwritten : visible (p :: parameters) after = p.before.val ++
        ';' :: (p.after.val ++ (p.name.chars ++ p.assigned) ++
          (parameters.flatMap Parameter.written ++ after.val)).takeWhile (· ≠ ',') := by
      have hsplit : (p :: parameters).flatMap Parameter.written ++ after.val =
          p.before.val ++ ';' :: (p.after.val ++ (p.name.chars ++ p.assigned) ++
            (parameters.flatMap Parameter.written ++ after.val)) := by
        simp [Parameter.written]
      rw [visible, hsplit, takeWhile_uncut (not_mem_blanks (by decide) p.before)]
      rfl
    exact ⟨p.before, _, hwritten, Or.inr ⟨_, rfl⟩⟩

/-- Nothing is seen where there is no relation and none is hidden. -/
theorem seenRelation_visible_none {parameters : List Parameter}
    (hother : ∀ p ∈ parameters, IsRelation p = false)
    (hsilent : ∀ p ∈ parameters, Silent p.assigned) (after : Text isBlank) :
    seenRelation (visible parameters after) = none := by
  induction parameters with
  | nil =>
    have hafter := seenRelation_blanks after []
    rw [List.append_nil] at hafter
    rw [visible_nil, hafter]
    rfl
  | cons p parameters ih =>
    by_cases hcomma : ',' ∈ p.written
    · rw [visible_cut hcomma]
      exact seenRelation_other_cut (hother p (by simp)) (hsilent p (by simp)) hcomma
    · rw [visible_uncut hcomma, seenRelation_other (hother p (by simp)) (hsilent p (by simp))
        (boundary_visible parameters after)]
      exact ih (fun q hq => hother q (by simp [hq])) fun q hq => hsilent q (by simp [hq])

/-- The first relation is what is seen, unless a comma comes before its end. -/
theorem describes_visible {before later : List Parameter} {p : Parameter}
    (hother : ∀ q ∈ before, IsRelation q = false) (hsilent : ∀ q ∈ before, Silent q.assigned)
    (hrelation : IsRelation p = true) (hliteral : Literal p) (after : Text isBlank) :
    Describes (seenRelation (visible (before ++ p :: later) after)) ↔
      "service-desc".toList ∈ Words.words isBlank p.content ∧
        ∀ q ∈ before ++ [p], ',' ∉ q.written := by
  induction before with
  | nil =>
    by_cases hcomma : ',' ∈ p.written
    · rw [List.nil_append, visible_cut hcomma]
      exact iff_of_false (not_describes_relation_cut hrelation hliteral hcomma)
        fun hdescribes => hdescribes.2 p (by simp) hcomma
    · rw [List.nil_append, visible_uncut hcomma,
        describes_relation hrelation hliteral (boundary_visible later after)]
      simp [hcomma]
  | cons q before ih =>
    have hq := hother q (by simp)
    have hqsilent := hsilent q (by simp)
    by_cases hcomma : ',' ∈ q.written
    · rw [List.cons_append, visible_cut hcomma, seenRelation_other_cut hq hqsilent hcomma]
      simp [not_describes_none, hcomma]
    · rw [List.cons_append, visible_uncut hcomma,
        seenRelation_other hq hqsilent (boundary_visible _ after),
        ih (fun q hq => hother q (by simp [hq])) fun q hq => hsilent q (by simp [hq])]
      simp [hcomma]

/-- The parameters of a link, parted at its relation. -/
theorem parameters_split {v : LinkValue} {p : Parameter} (h : relationParameter v = some p) :
    ∃ later, v.parameters = leading v ++ p :: later ∧ IsRelation p = true := by
  obtain ⟨hrelation, before, later, hsplit, hbefore⟩ := List.find?_eq_some_iff_append.mp h
  refine ⟨later, ?_, hrelation⟩
  rw [leading, hsplit, List.takeWhile_append_of_pos hbefore, List.takeWhile_cons, hrelation]
  simp

theorem leading_not_isRelation {v : LinkValue} : ∀ p ∈ leading v, IsRelation p = false := by
  intro p hp
  simpa using List.mem_takeWhile_imp hp

theorem leading_of_none {v : LinkValue} (h : relationParameter v = none) :
    leading v = v.parameters := by
  rw [leading, List.takeWhile_eq_self_iff]
  intro p hp
  simpa using List.find?_eq_none.mp h p hp

/-- The relation types of a link that is read as written. -/
theorem hasRelation_iff {v : LinkValue} (h : Readable v) :
    v.HasRelation "service-desc" ↔ ∃ p, relationParameter v = some p ∧
      "service-desc".toList ∈ Words.words isBlank p.content := by
  cases hparameter : relationParameter v with
  | none =>
    have htypes : v.relationTypes = [] := by
      rw [LinkValue.relationTypes]
      cases hfind : v.parameters.find? (·.isNamed "rel") with
      | none => rfl
      | some p =>
        have hnone := List.find?_eq_none.mp hparameter p (List.mem_of_find?_eq_some hfind)
        have hnamed := List.find?_some hfind
        have hassignment : p.assignment = none := by
          simpa [IsRelation, hnamed] using hnone
        simp [Parameter.content, hassignment, Words.words]
    simp [LinkValue.HasRelation, htypes]
  | some p =>
    obtain ⟨later, hsplit, hrelation⟩ := parameters_split hparameter
    have hfirst : ∀ q ∈ leading v, q.isNamed "rel" = false := by
      intro q hq
      rw [Bool.eq_false_iff]
      intro hnamed
      have hnone := h.assigned ⟨q, hq, hnamed⟩
      rw [hparameter] at hnone
      exact absurd hnone (by simp)
    have hfind : v.parameters.find? (·.isNamed "rel") = some p := by
      rw [hsplit, List.find?_append, List.find?_eq_none.mpr (by simpa using hfirst),
        List.find?_cons, (exists_of_isRelation hrelation).1]
      rfl
    have hliteral := h.literal p hparameter
    have htypes : v.relationTypes = Words.words isBlank p.content := by
      rw [LinkValue.relationTypes, hfind]
    simp only [LinkValue.HasRelation, htypes, Option.some.injEq, exists_eq_left']
    constructor
    · rintro ⟨word, hword, hlower⟩
      exact hliteral.lowerCase word hword hlower ▸ hword
    · intro hword
      exact ⟨_, hword, by decide⟩

/-- A link that does not describe the service is not taken to describe it. -/
theorem not_describes_of_readable {v : LinkValue} (h : Readable v)
    (hnot : ¬ v.HasRelation "service-desc") (after : Text isBlank) :
    ¬ Describes (seenRelation (visible v.parameters after)) := by
  rw [hasRelation_iff h] at hnot
  cases hparameter : relationParameter v with
  | none =>
    have hleading := leading_of_none hparameter
    rw [seenRelation_visible_none (hleading ▸ leading_not_isRelation) (hleading ▸ h.silent)]
    exact not_describes_none
  | some p =>
    obtain ⟨later, hsplit, hrelation⟩ := parameters_split hparameter
    rw [hsplit, describes_visible leading_not_isRelation h.silent hrelation
      (h.literal p hparameter)]
    exact fun hdescribes => hnot ⟨p, hparameter, hdescribes.1⟩

/-- The target of a link is not empty, and no comma comes before the end of its relation. -/
def Whole (v : LinkValue) : Prop :=
  v.target.val ≠ [] ∧ ∀ p ∈ leading v ++ (relationParameter v).toList, ',' ∉ p.written

instance (v : LinkValue) : Decidable (Whole v) := inferInstanceAs (Decidable (_ ∧ _))

theorem describes_of_readable {v : LinkValue} (h : Readable v) (hwhole : Whole v)
    (hhas : v.HasRelation "service-desc") (after : Text isBlank) :
    Describes (seenRelation (visible v.parameters after)) := by
  obtain ⟨p, hparameter, hword⟩ := (hasRelation_iff h).mp hhas
  obtain ⟨later, hsplit, hrelation⟩ := parameters_split hparameter
  rw [hsplit, describes_visible leading_not_isRelation h.silent hrelation (h.literal p hparameter)]
  have hcommas := hwhole.2
  rw [hparameter] at hcommas
  exact ⟨hword, hcommas⟩

/-! ## The links of a header -/

/-- No angle bracket stands where a link is searched next. -/
def Closed (v : LinkValue) : Prop :=
  '<' ∉ if v.target.val = [] then v.parametersWritten
    else v.parametersWritten.dropWhile (· ≠ ',')

instance (v : LinkValue) : Decidable (Closed v) := inferInstanceAs (Decidable ('<' ∉ _))

/-- The links before the first one that describes the service. -/
def passedLinks (elements : List Element) : List LinkValue :=
  (links elements).takeWhile fun v => !decide (v.HasRelation "service-desc")

/-- Up to the first link that describes the service, every link is read as written. -/
structure Legible (elements : List Element) : Prop where
  passed : ∀ v ∈ passedLinks elements, Readable v ∧ Closed v
  taken : ∀ v ∈ firstRelated "service-desc" elements, Readable v ∧ Whole v

instance (elements : List Element) : Decidable (Legible elements) :=
  decidable_of_iff
    ((∀ v ∈ passedLinks elements, Readable v ∧ Closed v) ∧
      ∀ v ∈ firstRelated "service-desc" elements, Readable v ∧ Whole v)
    ⟨fun h => ⟨h.1, h.2⟩, fun h => ⟨h.passed, h.taken⟩⟩

/-- The target of the first link that is seen to describe the service. -/
def seenTarget (chars : List Char) : Option (List Char) :=
  ((seenLinks chars).find? fun entry =>
    (linkRelations entry.2).contains "service-desc").map Prod.fst

theorem contains_linkRelations {parameters : List Char} :
    (linkRelations parameters).contains "service-desc" = true ↔
      Describes (seenRelation parameters) := by
  have htext : (String.ofList ((parameters.tails.findSome? relationAt).getD [])).toList =
      (seenRelation parameters).getD [] := String.toList_ofList
  rw [List.contains_iff_mem, linkRelations, splitWhiteSpace, htext, List.mem_map, Describes]
  constructor
  · rintro ⟨word, hword, heq⟩
    rwa [← heq, String.toList_ofList]
  · intro hword
    exact ⟨_, hword, String.ofList_toList⟩

theorem seenTarget_append {skipped : List Char} (h : '<' ∉ skipped) (rest : List Char) :
    seenTarget (skipped ++ rest) = seenTarget rest := by
  rw [seenTarget, seenLinks_append h, seenTarget]

/-- What follows an element in a header. -/
def following (elements : List Element) : List Char :=
  if elements = [] then [] else ',' :: LinkHeaders.written elements

theorem written_cons (e : Element) (elements : List Element) :
    LinkHeaders.written (e :: elements) = e.written ++ following elements := by
  cases elements with
  | nil => simp [LinkHeaders.written, Words.unwords, following]
  | cons f elements => simp [LinkHeaders.written, Words.unwords, following]

theorem seenTarget_following (elements : List Element) :
    seenTarget (following elements) = seenTarget (LinkHeaders.written elements) := by
  rw [following]
  split_ifs with h
  · rw [h]
    rfl
  · exact @seenTarget_append [','] (by decide) _

theorem takeWhile_following (chars : List Char) (elements : List Element) :
    (chars ++ following elements).takeWhile (· ≠ ',') = chars.takeWhile (· ≠ ',') := by
  by_cases hcomma : ',' ∈ chars
  · exact takeWhile_cut hcomma _
  · have hself := takeWhile_uncut hcomma []
    rw [List.append_nil, List.takeWhile_nil, List.append_nil] at hself
    rw [takeWhile_uncut hcomma, hself, following]
    split_ifs <;> simp

theorem dropWhile_following (chars : List Char) (elements : List Element) :
    (chars ++ following elements).dropWhile (· ≠ ',') =
      chars.dropWhile (· ≠ ',') ++ following elements := by
  rw [List.dropWhile_append]
  split_ifs with h
  · rw [List.isEmpty_iff.mp h, List.nil_append, following]
    split_ifs <;> simp
  · rfl

theorem not_mem_target {c : Char} (hc : isTargetCharacter c = false) (v : LinkValue) :
    c ∉ v.target.val := by
  intro hmem
  rw [v.target.property c hmem] at hc
  exact absurd hc (by simp)

/-- A link with a target is seen with its parameters up to the first comma. -/
theorem seenLinks_link {v : LinkValue} (hne : v.target.val ≠ []) (after : Text isBlank)
    (elements : List Element) :
    seenLinks (v.written ++ (after.val ++ following elements)) =
      (v.target.val, visible v.parameters after) ::
        seenLinks ((v.parametersWritten ++ after.val).dropWhile (· ≠ ',') ++
          following elements) := by
  have hsplit : v.written ++ (after.val ++ following elements) =
      '<' :: (v.target.val ++ '>' ::
        ((v.parametersWritten ++ after.val) ++ following elements)) := by
    simp [LinkValue.written]
  rw [hsplit, seenLinks_target hne (not_mem_target (by decide) v), takeWhile_following,
    dropWhile_following]
  rfl

/-- A closed link that is not seen to describe the service is passed. -/
theorem seenTarget_passed {v : LinkValue} (hreadable : Readable v) (hclosed : Closed v)
    (hnot : ¬ v.HasRelation "service-desc") (after : Text isBlank) (elements : List Element) :
    seenTarget (v.written ++ (after.val ++ following elements)) =
      seenTarget (LinkHeaders.written elements) := by
  have hafter : '<' ∉ after.val := not_mem_blanks (by decide) after
  rw [Closed] at hclosed
  split_ifs at hclosed with hempty
  · have hwritten : v.written ++ (after.val ++ following elements) =
        '<' :: '>' :: ((v.parametersWritten ++ after.val) ++ following elements) := by
      simp [LinkValue.written, hempty]
    rw [hwritten, seenTarget, seenLinks_empty, ← seenTarget,
      seenTarget_append (by simp [hclosed, hafter]), seenTarget_following]
  · have hnone : (linkRelations (visible v.parameters after)).contains "service-desc" = false := by
      rw [Bool.eq_false_iff]
      intro hcontains
      exact not_describes_of_readable hreadable hnot after (contains_linkRelations.mp hcontains)
    have hrest : '<' ∉ (v.parametersWritten ++ after.val).dropWhile (· ≠ ',') := by
      rw [List.dropWhile_append]
      split_ifs with h
      · exact fun hmem => hafter ((List.dropWhile_suffix _).subset hmem)
      · simp only [List.mem_append, not_or]
        exact ⟨hclosed, hafter⟩
    rw [seenTarget, seenLinks_link hempty, List.find?_cons, hnone]
    exact (seenTarget_append hrest _).trans (seenTarget_following elements)

theorem seenTarget_taken {v : LinkValue} (hreadable : Readable v) (hwhole : Whole v)
    (hhas : v.HasRelation "service-desc") (after : Text isBlank) (elements : List Element) :
    seenTarget (v.written ++ (after.val ++ following elements)) = some v.target.val := by
  have hcontains := contains_linkRelations.mpr (describes_of_readable hreadable hwhole hhas after)
  rw [seenTarget, seenLinks_link hwhole.1, List.find?_cons, hcontains]
  rfl

/-- The patterns find the link that the grammar gives. -/
theorem seenTarget_written {elements : List Element} (h : Legible elements) :
    seenTarget (LinkHeaders.written elements) =
      (firstRelated "service-desc" elements).map fun v => v.target.val := by
  induction elements with
  | nil => rfl
  | cons e elements ih =>
    have hpassed := h.passed
    have htaken := h.taken
    rw [written_cons, Element.written, List.append_assoc,
      seenTarget_append (not_mem_blanks (by decide) e.before), List.append_assoc]
    cases hlink : e.link with
    | none =>
      have hlinks : links (e :: elements) = links elements := by simp [links, hlink]
      rw [passedLinks, hlinks, ← passedLinks] at hpassed
      rw [firstRelated, hlinks, ← firstRelated] at htaken ⊢
      rw [Option.map_none, Option.getD_none, List.nil_append,
        seenTarget_append (not_mem_blanks (by decide) e.after), seenTarget_following]
      exact ih ⟨hpassed, htaken⟩
    | some v =>
      have hlinks : links (e :: elements) = v :: links elements := by simp [links, hlink]
      rw [passedLinks, hlinks, List.takeWhile_cons] at hpassed
      rw [firstRelated, hlinks, List.find?_cons] at htaken ⊢
      rw [Option.map_some, Option.getD_some]
      by_cases hhas : v.HasRelation "service-desc"
      · rw [decide_eq_true hhas] at htaken ⊢
        obtain ⟨hreadable, hwhole⟩ := htaken v rfl
        exact seenTarget_taken hreadable hwhole hhas e.after elements
      · rw [decide_eq_false hhas] at htaken hpassed ⊢
        obtain ⟨hreadable, hclosed⟩ := hpassed v (by simp)
        rw [seenTarget_passed hreadable hclosed hhas]
        refine ih ⟨fun w hw => hpassed w ?_, htaken⟩
        rw [passedLinks] at hw
        simpa using Or.inr hw

/-! ## The description of the service -/

section Description

variable [Platform]

/-- The error of a resource that advertises no document. -/
def missingDescription : Error :=
  badRequest "Business resource must advertise its OpenAPI document with a service-desc Link."

/-- The header gives the target of the first link that describes the service, resolved, and the
error when no link does. -/
structure DiscoversDescription (elements : List Element) (resourceUrl : String) : Prop where
  resolved : ∀ v ∈ firstRelated "service-desc" elements, ∀ url,
    Platform.resolveUrl (String.ofList v.target.val) resourceUrl = some url →
      serviceDescriptionUrl (some (String.ofList (LinkHeaders.written elements))) resourceUrl =
        .ok url
  missing :
    serviceDescriptionUrl (some (String.ofList (LinkHeaders.written elements))) resourceUrl =
      .error missingDescription ↔ firstRelated "service-desc" elements = none

/-- `serviceDescriptionUrl`, from the target that is seen. -/
theorem serviceDescriptionUrl_eq (chars : List Char) (resourceUrl : String) :
    serviceDescriptionUrl (some (String.ofList chars)) resourceUrl =
      match seenTarget chars with
      | some target =>
        match Platform.resolveUrl (String.ofList target) resourceUrl with
        | some url => .ok url
        | none => .error (.internal "Invalid URL")
      | none => .error missingDescription := by
  by_cases hempty : String.ofList chars = ""
  · have hchars : chars = [] := by
      rw [← String.toList_ofList (l := chars), hempty]
      rfl
    subst hchars
    rfl
  · have htruthy : truthy (some (String.ofList chars)) = some (String.ofList chars) := by
      simp [truthy, hempty]
    rw [serviceDescriptionUrl, htruthy]
    simp only [String.toList_ofList]
    rw [seenTarget, seenLinks]
    cases (linkValues chars.length chars).find? fun entry =>
      (linkRelations entry.2).contains "service-desc" with
    | none => rfl
    | some entry => rfl

end Description

/-! ## A comma in a title -/

namespace ServiceDescriptionsExample

@[reducible] def platform : Platform :=
  { samplePlatform with
    resolveUrl := fun target _ => some ("https://orders.example.com" ++ target) }

attribute [local instance] platform

def noBlanks : Text isBlank := ⟨[], List.all_eq_true.mp (by decide)⟩

def space : Text isBlank := ⟨[' '], List.all_eq_true.mp (by decide)⟩

def rel : Token :=
  { chars := "rel".toList, nonempty := by decide, valid := List.all_eq_true.mp (by decide) }

def title : Token :=
  { chars := "title".toList, nonempty := by decide, valid := List.all_eq_true.mp (by decide) }

/-- A parameter with a quoted value, after a semicolon and a space. -/
def quoted (name : Token) (chars : List Char) (h : ∀ c ∈ chars, isQuotedText c = true) :
    Parameter :=
  { before := noBlanks, after := space, name := name
    assignment := some
      { before := noBlanks, after := noBlanks, value := .quoted (chars.pmap .text h) } }

def described : Parameter := quoted rel "service-desc".toList (List.all_eq_true.mp (by decide))

def titled : Parameter :=
  quoted title "Orders, returns".toList (List.all_eq_true.mp (by decide))

def link (parameters : List Parameter) : Element :=
  { before := noBlanks, after := noBlanks
    link := some
      { target := ⟨"/openapi.json".toList, List.all_eq_true.mp (by decide)⟩
        parameters := parameters } }

example : String.ofList (LinkHeaders.written [link [titled, described]]) =
    "</openapi.json>; title=\"Orders, returns\"; rel=\"service-desc\"" := by decide +kernel

end ServiceDescriptionsExample

end Realmroot
