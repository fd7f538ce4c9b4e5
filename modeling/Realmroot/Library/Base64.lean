import Mathlib.Algebra.GroupWithZero.Nat
import Mathlib.Data.List.Basic
import Mathlib.Data.List.DropRight
import Mathlib.Tactic.SplitIfs

/-!
# Base64

Bytes as texts over 64 characters, with padding, and the lenient reading of such texts: white
space is skipped, the padding may be missing, and bits that make up no byte are dropped. In the
variant for URLs two characters are replaced and the padding is left out.
-/

namespace Base64

/-! ## Digits -/

def alphabet : List Char :=
  "ABCDEFGHIJKLMNOPQRSTUVWXYZabcdefghijklmnopqrstuvwxyz0123456789+/".toList

def digit (n : ℕ) : Char := alphabet.getD n '='

def value? (c : Char) : Option ℕ := alphabet.idxOf? c

theorem value?_digit {n : ℕ} (h : n < 64) : value? (digit n) = some n := by
  have hall : ∀ n ∈ List.range 64, value? (digit n) = some n := by decide
  exact hall n (List.mem_range.mpr h)

theorem value?_padding : value? '=' = none := by decide

/-! ## Groups of bits -/

/-- The bytes in groups of six bits; the last group is filled up with zeros. -/
def sextets : List UInt8 → List ℕ
  | [] => []
  | [a] => [a.toNat / 4, a.toNat % 4 * 16]
  | [a, b] => [a.toNat / 4, a.toNat % 4 * 16 + b.toNat / 16, b.toNat % 16 * 4]
  | a :: b :: c :: rest =>
    a.toNat / 4 :: (a.toNat % 4 * 16 + b.toNat / 16) :: (b.toNat % 16 * 4 + c.toNat / 64) ::
      c.toNat % 64 :: sextets rest

/-- The bytes of groups of six bits; bits that make up no byte are dropped. -/
def bytes : List ℕ → List UInt8
  | a :: b :: c :: d :: rest =>
    UInt8.ofNat (a * 4 + b / 16) :: UInt8.ofNat (b % 16 * 16 + c / 4) ::
      UInt8.ofNat (c % 4 * 64 + d) :: bytes rest
  | [a, b, c] => [UInt8.ofNat (a * 4 + b / 16), UInt8.ofNat (b % 16 * 16 + c / 4)]
  | [a, b] => [UInt8.ofNat (a * 4 + b / 16)]
  | _ => []

theorem ofNat_eq {n : ℕ} {a : UInt8} (h : n = a.toNat) : UInt8.ofNat n = a := by
  rw [h, UInt8.ofNat_toNat]

theorem bytes_sextets (input : List UInt8) : bytes (sextets input) = input := by
  induction input using sextets.induct with
  | case1 => rfl
  | case2 a =>
    have ha := a.toNat_lt
    simp only [sextets, bytes]
    rw [ofNat_eq (a := a) (by omega)]
  | case3 a b =>
    have ha := a.toNat_lt
    have hb := b.toNat_lt
    simp only [sextets, bytes]
    rw [ofNat_eq (a := a) (by omega), ofNat_eq (a := b) (by omega)]
  | case4 a b c rest ih =>
    have ha := a.toNat_lt
    have hb := b.toNat_lt
    have hc := c.toNat_lt
    simp only [sextets, bytes, ih]
    rw [ofNat_eq (a := a) (by omega), ofNat_eq (a := b) (by omega), ofNat_eq (a := c) (by omega)]

theorem sextets_lt (input : List UInt8) : ∀ n ∈ sextets input, n < 64 := by
  induction input using sextets.induct with
  | case1 => simp [sextets]
  | case2 a =>
    have ha := a.toNat_lt
    simp only [sextets, List.forall_mem_cons]
    refine ⟨by omega, by omega, by simp⟩
  | case3 a b =>
    have ha := a.toNat_lt
    have hb := b.toNat_lt
    simp only [sextets, List.forall_mem_cons]
    refine ⟨by omega, by omega, by omega, by simp⟩
  | case4 a b c rest ih =>
    have ha := a.toNat_lt
    have hb := b.toNat_lt
    have hc := c.toNat_lt
    simp only [sextets, List.forall_mem_cons]
    exact ⟨by omega, by omega, by omega, by omega, ih⟩

/-- How many characters are missing for a full group of four. -/
def missing (length : ℕ) : ℕ := (4 - length % 4) % 4

theorem length_sextets (input : List UInt8) :
    (sextets input).length % 4 ≠ 1 ∧ ((sextets input).length = 0 ↔ input = []) := by
  induction input using sextets.induct with
  | case1 => simp [sextets]
  | case2 a => simp [sextets]
  | case3 a b => simp [sextets]
  | case4 a b c rest ih =>
    simp only [sextets, List.length_cons]
    refine ⟨by omega, by simp⟩

theorem length_bytes (values : List ℕ) : (bytes values).length ≤ values.length := by
  induction values using bytes.induct with
  | case1 a b c d rest ih =>
    simp only [bytes, List.length_cons]
    omega
  | case2 a b c => simp [bytes]
  | case3 a b => simp [bytes]
  | case4 values hfour hthree htwo =>
    rw [bytes]
    · simp
    · exact hfour
    · exact hthree
    · exact htwo

/-! ## Texts -/

/-- The text of the bytes, with padding. -/
def encode (input : List UInt8) : List Char :=
  (sextets input).map digit ++ List.replicate (missing (sextets input).length) '='

def isSpace (c : Char) : Bool := [' ', '\t', '\n', '\r', Char.ofNat 0x0c].contains c

/-- A text without one or two characters of padding at its end. -/
def dropPadding (text : List Char) : List Char :=
  if text.getLast? = some '=' then
    if text.dropLast.getLast? = some '=' then text.dropLast.dropLast else text.dropLast
  else text

/-- The padding counts only at the end of full groups. -/
def unpadded (text : List Char) : List Char :=
  if text.length % 4 = 0 then dropPadding text else text

/-- The bytes of a text, if it is one. -/
def decode (text : List Char) : Option (List UInt8) :=
  let body := unpadded (text.filter fun c => !isSpace c)
  if body.length % 4 = 1 then none else (body.mapM value?).map bytes

/-! ### The variant for URLs -/

def toUrl (c : Char) : Char := if c = '+' then '-' else if c = '/' then '_' else c

def fromUrl (c : Char) : Char := if c = '-' then '+' else if c = '_' then '/' else c

/-- The text of the bytes with the characters for URLs, without the padding. -/
def encodeUrl (input : List UInt8) : List Char :=
  ((encode input).map toUrl).rdropWhile (· = '=')

/-- The code units of a character. -/
def units (c : Char) : ℕ := if c.toNat < 0x10000 then 1 else 2

/-- The text is filled up to full groups of four, and read. -/
def decodeUrl (text : List Char) : Option (List UInt8) :=
  decode (text.map fromUrl ++ List.replicate (missing (text.map units).sum) '=')

/-- The characters of `encodeUrl`. -/
def isUrlDigit (c : Char) : Bool := c.isAlphanum || c = '-' || c = '_'

theorem urlDigit_spec {n : ℕ} (h : n < 64) :
    isUrlDigit (toUrl (digit n)) = true ∧ fromUrl (toUrl (digit n)) = digit n ∧
      toUrl (digit n) ≠ '=' ∧ isSpace (digit n) = false ∧ units (toUrl (digit n)) = 1 := by
  have hall : ∀ n ∈ List.range 64, isUrlDigit (toUrl (digit n)) = true ∧
      fromUrl (toUrl (digit n)) = digit n ∧ toUrl (digit n) ≠ '=' ∧ isSpace (digit n) = false ∧
        units (toUrl (digit n)) = 1 := by decide
  exact hall n (List.mem_range.mpr h)

/-- The text for URLs is that of the groups of bits. -/
theorem encodeUrl_eq (input : List UInt8) :
    encodeUrl input = (sextets input).map fun n => toUrl (digit n) := by
  have hpadding : toUrl '=' = '=' := by decide
  have hdrop : ∀ k (text : List Char), (∀ c ∈ text, c ≠ '=') →
      (text ++ List.replicate k '=').rdropWhile (· = '=') = text := by
    intro k text htext
    induction k with
    | zero =>
      rw [List.replicate_zero, List.append_nil, List.rdropWhile_eq_self_iff]
      intro hne
      simpa using htext _ (List.getLast_mem hne)
    | succ k ih =>
      rw [List.replicate_succ', ← List.append_assoc, List.rdropWhile_concat_pos _ _ _ (by simp)]
      exact ih
  rw [encodeUrl, encode, List.map_append, List.map_replicate, hpadding, List.map_map]
  apply hdrop
  intro c hc
  obtain ⟨n, hn, rfl⟩ := List.mem_map.mp hc
  exact (urlDigit_spec (sextets_lt input n hn)).2.2.1

theorem isUrlDigit_of_mem_encodeUrl {input : List UInt8} {c : Char} (h : c ∈ encodeUrl input) :
    isUrlDigit c = true := by
  rw [encodeUrl_eq] at h
  obtain ⟨n, hn, rfl⟩ := List.mem_map.mp h
  exact (urlDigit_spec (sextets_lt input n hn)).1

theorem encodeUrl_eq_nil {input : List UInt8} : encodeUrl input = [] ↔ input = [] := by
  rw [encodeUrl_eq, List.map_eq_nil_iff, ← List.length_eq_zero_iff]
  exact (length_sextets input).2

theorem dropPadding_append {text : List Char} (htext : ∀ c ∈ text, c ≠ '=') {k : ℕ} (hk : k ≤ 2) :
    dropPadding (text ++ List.replicate k '=') = text := by
  have hlast : text.getLast? ≠ some '=' := by
    intro h
    exact htext '=' (List.mem_of_getLast? h) rfl
  obtain rfl | rfl | rfl : k = 0 ∨ k = 1 ∨ k = 2 := by omega
  · simp [dropPadding, hlast]
  · simp [dropPadding, hlast]
  · have htwo : text ++ List.replicate 2 '=' = (text ++ ['=']) ++ ['='] := by simp
    rw [htwo, dropPadding, List.getLast?_concat, if_pos rfl, List.dropLast_concat,
      List.getLast?_concat, if_pos rfl, List.dropLast_concat]

theorem mapM_value? {values : List ℕ} (h : ∀ n ∈ values, n < 64) :
    (values.map digit).mapM value? = some values := by
  induction values with
  | nil => rfl
  | cons n values ih =>
    rw [List.forall_mem_cons] at h
    simp [value?_digit h.1, ih h.2]

theorem sum_units {text : List Char} (h : ∀ c ∈ text, units c = 1) :
    (text.map units).sum = text.length := by
  induction text with
  | nil => rfl
  | cons c text ih =>
    rw [List.forall_mem_cons] at h
    rw [List.map_cons, List.sum_cons, h.1, ih h.2, List.length_cons, Nat.add_comm]

/-- Bytes are read back. -/
theorem decodeUrl_encodeUrl (input : List UInt8) : decodeUrl (encodeUrl input) = some input := by
  have hlt := sextets_lt input
  obtain ⟨hlength, -⟩ := length_sextets input
  have hchars : (encodeUrl input).map fromUrl = (sextets input).map digit := by
    rw [encodeUrl_eq, List.map_map]
    apply List.map_congr_left
    intro n hn
    exact (urlDigit_spec (hlt n hn)).2.1
  have hunits : ((encodeUrl input).map units).sum = (sextets input).length := by
    rw [sum_units, encodeUrl_eq, List.length_map]
    intro c hc
    rw [encodeUrl_eq] at hc
    obtain ⟨n, hn, rfl⟩ := List.mem_map.mp hc
    exact (urlDigit_spec (hlt n hn)).2.2.2.2
  have hspace : ∀ c ∈ (sextets input).map digit ++
      List.replicate (missing (sextets input).length) '=', (!isSpace c) = true := by
    intro c hc
    rcases List.mem_append.mp hc with hc | hc
    · obtain ⟨n, hn, rfl⟩ := List.mem_map.mp hc
      simp [(urlDigit_spec (hlt n hn)).2.2.2.1]
    · rw [(List.mem_replicate.mp hc).2]
      decide
  have hpadding : ∀ c ∈ (sextets input).map digit, c ≠ '=' := by
    intro c hc heq
    obtain ⟨n, hn, rfl⟩ := List.mem_map.mp hc
    have hvalue := value?_digit (hlt n hn)
    rw [heq, value?_padding] at hvalue
    cases hvalue
  have hgroups : ((sextets input).map digit ++
      List.replicate (missing (sextets input).length) '=').length % 4 = 0 := by
    simp only [List.length_append, List.length_map, List.length_replicate, missing]
    omega
  have hmissing : missing (sextets input).length ≤ 2 := by
    unfold missing
    omega
  rw [decodeUrl, hchars, hunits, decode, List.filter_eq_self.mpr hspace, unpadded, if_pos hgroups,
    dropPadding_append hpadding hmissing, List.length_map, if_neg hlength, mapM_value? hlt,
    Option.map_some, bytes_sextets]

/-! ### Lengths -/

theorem length_mapM_value? {text : List Char} {values : List ℕ}
    (h : text.mapM value? = some values) :
    values.length = text.length ∧ ∀ c ∈ text, c ≠ '=' := by
  induction text generalizing values with
  | nil =>
    cases h
    simp
  | cons c text ih =>
    rw [List.mapM_cons] at h
    obtain ⟨n, hn, h⟩ := Option.bind_eq_some_iff.mp h
    obtain ⟨rest, hrest, h⟩ := Option.bind_eq_some_iff.mp h
    cases h
    obtain ⟨hlength, hpadding⟩ := ih hrest
    refine ⟨by simp [hlength], ?_⟩
    rw [List.forall_mem_cons]
    refine ⟨?_, hpadding⟩
    rintro rfl
    rw [value?_padding] at hn
    cases hn

theorem unpadded_prefix (text : List Char) : unpadded text <+: text := by
  unfold unpadded dropPadding
  split_ifs
  · exact (List.dropLast_prefix _).trans (List.dropLast_prefix _)
  · exact List.dropLast_prefix _
  · exact List.prefix_rfl
  · exact List.prefix_rfl

/-- A text is at least as long as the bytes that are read in it. -/
theorem length_le_of_decodeUrl {text : List Char} {input : List UInt8}
    (h : decodeUrl text = some input) : input.length ≤ text.length := by
  unfold decodeUrl decode at h
  have hstem := unpadded_prefix ((text.map fromUrl ++
    List.replicate (missing (text.map units).sum) '=').filter fun c => !isSpace c)
  generalize unpadded _ = body at h hstem
  simp only at h
  split_ifs at h
  obtain ⟨values, hvalues, rfl⟩ := Option.map_eq_some_iff.mp h
  obtain ⟨hlength, hpadding⟩ := length_mapM_value? hvalues
  have hkept : body.filter (· ≠ '=') = body :=
    List.filter_eq_self.mpr fun c hc => by simpa using hpadding c hc
  have hbodyLength : body.length ≤ text.length := by
    have hsublist := (hstem.sublist.filter (· ≠ '='))
    rw [hkept] at hsublist
    have hle := hsublist.length_le
    rw [List.filter_append, List.filter_append] at hle
    have hnone : ((List.replicate (missing (text.map units).sum) '=').filter fun c =>
        !isSpace c).filter (· ≠ '=') = [] := by
      rw [List.filter_eq_nil_iff]
      intro c hc
      rw [(List.mem_replicate.mp (List.mem_filter.mp hc).1).2]
      simp
    rw [hnone, List.append_nil] at hle
    have hfirst := List.length_filter_le (· ≠ '=')
      ((text.map fromUrl).filter fun c => !isSpace c)
    have hsecond := List.length_filter_le (fun c => !isSpace c) (text.map fromUrl)
    rw [List.length_map] at hsecond
    omega
  have hbytes := length_bytes values
  omega

end Base64
