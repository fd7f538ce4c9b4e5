import Mathlib
import Realmroot.Usecases.FederatedKeys

/-!
# Hosts of key addresses

Which hosts the check of a key address lets through and which it turns away. It reads the host as
text, so some spellings of internal hosts pass, and some public names do not.
-/

namespace Realmroot

open Hosts Numerals

/-! ## The tests on the text -/

/-- The tests for a name of this machine or of its link. -/
def NamesLocal (host : List Char) : Prop :=
  host = "localhost".toList ∨ ".localhost".toList <:+ host ∨ ".local".toList <:+ host

/-- The tests for the first characters of an address of version 6. -/
def StartsPrivate (host : List Char) : Prop :=
  host = "::1".toList ∨ "fc".toList <+: host ∨ "fd".toList <+: host ∨ "fe80:".toList <+: host

/-- A text that the normalisation of the check leaves as it is. -/
def IsPlainText (host : List Char) : Prop :=
  ∀ c ∈ host, c.isUpper = false ∧ c ≠ '[' ∧ c ≠ ']'

theorem map_toLower {host : List Char} (h : ∀ c ∈ host, c.isUpper = false) :
    host.map Char.toLower = host := by
  have hlower : ∀ c ∈ host, c.toLower = id c := fun c hc =>
    Char.toLower_eq_of_not_isUpper (by simp [h c hc])
  rw [List.map_congr_left hlower, List.map_id]

theorem withoutBrackets_of_plain {host : List Char} (h : IsPlainText host) :
    withoutBrackets host = host := by
  have hhead : host.head? ≠ some '[' := fun heq => (h _ (List.mem_of_head? heq)).2.1 rfl
  have hlast : host.getLast? ≠ some ']' := fun heq => (h _ (List.mem_of_getLast? heq)).2.2 rfl
  simp [withoutBrackets, hhead, hlast]

theorem withoutBrackets_brackets (host : List Char) :
    withoutBrackets ('[' :: host ++ [']']) = host := by
  simp [withoutBrackets]

theorem isPrivateHostname_iff {hostname : String} {host : List Char}
    (h : withoutBrackets (hostname.toList.map Char.toLower) = host) :
    isPrivateHostname hostname = true ↔
      NamesLocal host ∨ StartsPrivate host ∨ isPrivateAddress host = true := by
  have hnames : (host = "localhost".toList || ".localhost".toList.isSuffixOf host ||
      ".local".toList.isSuffixOf host) = true ↔ NamesLocal host := by
    simp only [NamesLocal, Bool.or_eq_true, decide_eq_true_eq, List.isSuffixOf_iff_suffix, or_assoc]
  have hstarts : (host = "::1".toList || "fc".toList.isPrefixOf host ||
      "fd".toList.isPrefixOf host || "fe80:".toList.isPrefixOf host) = true ↔
        StartsPrivate host := by
    simp only [StartsPrivate, Bool.or_eq_true, decide_eq_true_eq, List.isPrefixOf_iff_prefix,
      or_assoc]
  unfold isPrivateHostname
  rw [h]
  dsimp only
  split_ifs with hlocal hprivate
  · exact iff_of_true rfl (Or.inl (hnames.mp hlocal))
  · exact iff_of_true rfl (Or.inr (Or.inl (hstarts.mp hprivate)))
  · rw [hnames] at hlocal
    rw [hstarts] at hprivate
    simp only [hlocal, hprivate, false_or]

theorem mapM_octet_of_nan {numbers : List Number} (h : Number.nan ∈ numbers) :
    numbers.mapM octet = none := by
  induction numbers with
  | nil => simp at h
  | cons number numbers ih =>
    rw [List.mapM_cons]
    rcases List.mem_cons.mp h with rfl | h
    · rfl
    · cases octet number with
      | none => rfl
      | some n => simp [ih h]

/-- A text with a label that is no number is no decimal address. -/
theorem isPrivateAddress_of_label {host label : List Char} (hlabel : label ∈ labels host)
    (h : toNumber label = .nan) : isPrivateAddress host = false := by
  have hnan : Number.nan ∈ (labels host).map toNumber := List.mem_map.mpr ⟨label, hlabel, h⟩
  simp [isPrivateAddress, mapM_octet_of_nan hnan]

/-- A text without a dot is no decimal address. -/
theorem isPrivateAddress_of_not_mem {host : List Char} (h : '.' ∉ host) :
    isPrivateAddress host = false := by
  rw [isPrivateAddress, labels_of_not_mem h]
  cases hoctet : octet (toNumber host) with
  | none => simp [hoctet]
  | some n => simp [hoctet]

/-! ## Names -/

theorem isPlainText_name (name : DnsName) : IsPlainText name.text := by
  intro c hc
  have hchar := name.chars c hc
  simp only [isDomainChar, Bool.and_eq_true, Bool.not_eq_true'] at hchar
  obtain ⟨⟨-, hupper⟩, hforbidden⟩ := hchar
  refine ⟨hupper, ?_, ?_⟩
  all_goals
    rintro rfl
    exact absurd hforbidden (by decide)

theorem colon_not_mem (name : DnsName) : ':' ∉ name.text := by
  intro hc
  exact absurd (name.chars ':' hc) (by decide)

/-- The names that start as the addresses `fc00::/7` do. -/
def LeadsLikePrivate (name : DnsName) : Prop :=
  "fc".toList <+: name.text ∨ "fd".toList <+: name.text

theorem startsPrivate_name (name : DnsName) : StartsPrivate name.text ↔ LeadsLikePrivate name := by
  have hcolon := colon_not_mem name
  constructor
  · rintro (heq | h | h | h)
    · rw [heq] at hcolon
      exact absurd (by decide) hcolon
    · exact Or.inl h
    · exact Or.inr h
    · exact absurd (h.subset (by decide)) hcolon
  · rintro (h | h)
    · exact Or.inr (Or.inl h)
    · exact Or.inr (Or.inr (Or.inl h))

/-- A name that the check of the suffixes passes although it is in `localhost`. -/
def HasTrailingDot (name : DnsName) : Prop :=
  name.text = "localhost.".toList ∨ ".localhost.".toList <:+ name.text

theorem isLocalhost_iff (name : DnsName) :
    name.IsLocalhost ↔
      name.text = "localhost".toList ∨ ".localhost".toList <:+ name.text ∨ HasTrailingDot name := by
  have hdomain : '.' :: "localhost".toList = ".localhost".toList := by decide
  have hdotted : ".localhost".toList ++ ['.'] = ".localhost.".toList := by decide
  simp only [DnsName.IsLocalhost, DnsName.IsIn, hdomain, hdotted, HasTrailingDot]
  exact or_congr_right or_left_comm

/-- A name with a trailing dot after `localhost` has it as a label. -/
theorem HasTrailingDot.label {name : DnsName} (h : HasTrailingDot name) :
    "localhost".toList ∈ labels name.text := by
  rcases h with h | ⟨before, h⟩
  · rw [h]
    decide
  · have hsplit : name.text = before ++ '.' :: "localhost.".toList := h.symm
    rw [hsplit, labels, List.splitOn_append_cons_self]
    exact List.mem_append_right _ (by decide)

theorem HasTrailingDot.not_namesLocal {name : DnsName} (h : HasTrailingDot name) :
    ¬ NamesLocal name.text := by
  have hlast : name.text.getLast? = some '.' := by
    rcases h with h | ⟨before, h⟩
    · rw [h]
      decide
    · rw [← h, List.getLast?_append]
      rfl
  rintro (heq | ⟨before, heq⟩ | ⟨before, heq⟩)
  · rw [heq] at hlast
    exact absurd hlast (by decide)
  · rw [← heq, List.getLast?_append] at hlast
    have hchar : some 't' = some '.' := hlast
    cases hchar
  · rw [← heq, List.getLast?_append] at hlast
    have hchar : some 'l' = some '.' := hlast
    cases hchar

/-- Which names the check turns away. -/
theorem isPrivateHostname_name {hostname : String} {name : DnsName}
    (h : hostname.toList = name.text) :
    isPrivateHostname hostname = true ↔
      NamesLocal name.text ∨ LeadsLikePrivate name ∨ isPrivateAddress name.text = true := by
  have hplain := isPlainText_name name
  have htext : withoutBrackets (hostname.toList.map Char.toLower) = name.text := by
    rw [h, map_toLower fun c hc => (hplain c hc).1, withoutBrackets_of_plain hplain]
  rw [isPrivateHostname_iff htext, startsPrivate_name]

/-- A name of this machine passes exactly when it has a trailing dot and does not start as a
private address does. -/
theorem localhost_passes_iff {hostname : String} {name : DnsName}
    (h : hostname.toList = name.text) (hlocal : name.IsLocalhost) :
    isPrivateHostname hostname = false ↔ HasTrailingDot name ∧ ¬ LeadsLikePrivate name := by
  rw [← Bool.not_eq_true, isPrivateHostname_name h]
  constructor
  · intro hnot
    push Not at hnot
    rcases (isLocalhost_iff name).mp hlocal with heq | hsuffix | hdot
    · exact absurd (Or.inl heq) hnot.1
    · exact absurd (Or.inr (Or.inl hsuffix)) hnot.1
    · exact ⟨hdot, hnot.2.1⟩
  · rintro ⟨hdot, hleads⟩ (hnames | hstarts | haddress)
    · exact hdot.not_namesLocal hnames
    · exact hleads hstarts
    · have hnan : toNumber "localhost".toList = .nan := toNumber_of_isLower (by decide) _
      rw [isPrivateAddress_of_label hdot.label hnan] at haddress
      cases haddress

/-- A public name is turned away exactly when it starts as a private address does. -/
theorem public_passes_iff {hostname : String} {name : DnsName}
    (h : hostname.toList = name.text) (hpublic : name.IsPublic) :
    isPrivateHostname hostname = false ↔ ¬ LeadsLikePrivate name := by
  rw [← Bool.not_eq_true, isPrivateHostname_name h]
  obtain ⟨hlocal, hmulticast, label, hlabel, c, rest, rfl, hc⟩ := hpublic
  have hnames : ¬ NamesLocal name.text := by
    rintro (heq | hsuffix | hsuffix)
    · exact hlocal ((isLocalhost_iff name).mpr (Or.inl heq))
    · exact hlocal ((isLocalhost_iff name).mpr (Or.inr (Or.inl hsuffix)))
    · exact hmulticast (Or.inl hsuffix)
  have haddress := isPrivateAddress_of_label hlabel (toNumber_of_isLower hc rest)
  simp [hnames, haddress]

/-! ## Addresses of version 4 -/

theorem octet_toNumber {n : ℕ} (h : n < 256) : octet (toNumber (Nat.toDigits 10 n)) = some n := by
  rw [toNumber_toDigits (by omega)]
  have hle : (n : ℚ) ≤ 255 := by exact_mod_cast (by omega : n ≤ 255)
  simp [octet, hle]

theorem labels_ipv4 (address : Ipv4) :
    labels address.text = address.octets.map (Nat.toDigits 10) := by
  have hdots : ∀ digits ∈ address.octets.map (Nat.toDigits 10), '.' ∉ digits := by
    intro digits hdigits hdot
    obtain ⟨n, -, rfl⟩ := List.mem_map.mp hdigits
    exact absurd (Nat.isDigit_of_mem_toDigits (by norm_num) (by norm_num) hdot) (by decide)
  exact List.splitOn_intercalate '.' hdots (by simp [Ipv4.octets])

theorem isPrivateAddress_of_internal {address : Ipv4} (h : address.IsInternal) :
    isPrivateAddress address.text = true := by
  have hoctets : ((labels address.text).map toNumber).mapM octet = some address.octets := by
    rw [labels_ipv4]
    simp [Ipv4.octets, octet_toNumber (UInt8.toNat_lt _)]
  simp only [isPrivateAddress, hoctets, Ipv4.octets]
  rcases h with rfl | h | (h | ⟨ha, hlow, hhigh⟩ | ⟨ha, hb⟩) | ⟨ha, hb⟩
  · decide
  · simp [show address.a = 127 from h]
  · simp [h]
  · have hlow' : 16 ≤ address.b.toNat := UInt8.le_iff_toNat_le.mp hlow
    have hhigh' : address.b.toNat ≤ 31 := UInt8.le_iff_toNat_le.mp hhigh
    simp [ha, hlow', hhigh']
  · simp [ha, hb]
  · simp [ha, hb]

/-- A character outside the upper-case letters and the brackets that follow them. -/
theorem plain_of_range {c : Char} (h : c.toNat < 65 ∨ 97 ≤ c.toNat) :
    c.isUpper = false ∧ c ≠ '[' ∧ c ≠ ']' := by
  refine ⟨?_, ?_, ?_⟩
  · simp only [Char.isUpper, decide_eq_false_iff_not, ge_iff_le, UInt32.le_iff_toNat_le]
    change ¬ (65 ≤ c.toNat ∧ c.toNat ≤ 90)
    omega
  all_goals
    rintro rfl
    revert h
    decide

theorem range_of_isDigit {c : Char} (h : c.isDigit = true) : c.toNat < 65 := by
  have hrange : 48 ≤ c.toNat ∧ c.toNat ≤ 57 := by
    simpa [Char.isDigit, UInt32.le_iff_toNat_le] using h
  omega

theorem isPlainText_ipv4 (address : Ipv4) : IsPlainText address.text := by
  intro c hc
  rcases mem_intercalate hc with hc | ⟨digits, hdigits, hc⟩
  · rw [List.mem_singleton.mp hc]
    decide
  · obtain ⟨n, -, rfl⟩ := List.mem_map.mp hdigits
    have hdigit := Nat.isDigit_of_mem_toDigits (by norm_num) (by norm_num) hc
    exact plain_of_range (Or.inl (range_of_isDigit hdigit))

/-- The check turns every internal address of version 4 away. -/
theorem isPrivateHostname_ipv4 {hostname : String} {address : Ipv4}
    (h : hostname.toList = address.text) (hinternal : address.IsInternal) :
    isPrivateHostname hostname = true := by
  have hplain := isPlainText_ipv4 address
  have htext : withoutBrackets (hostname.toList.map Char.toLower) = address.text := by
    rw [h, map_toLower fun c hc => (hplain c hc).1, withoutBrackets_of_plain hplain]
  exact (isPrivateHostname_iff htext).mpr
    (Or.inr (Or.inr (isPrivateAddress_of_internal hinternal)))

/-! ## Addresses of version 6 -/

section Ipv6

variable {hostname : String} {address : Ipv6}

/-- The pieces of an address as numbers. -/
def pieceValues (address : Ipv6) : List ℕ := address.pieces.map (·.toNat)

theorem plain_of_isPieceChar {c : Char} (h : IsPieceChar c) :
    c.isUpper = false ∧ c ≠ '[' ∧ c ≠ ']' := by
  rcases h with rfl | h | ⟨hlow, -⟩
  · decide
  · exact plain_of_range (Or.inl (range_of_isDigit h))
  · exact plain_of_range (Or.inr hlow)

theorem not_namesLocal_pieces (pieces : List ℕ) : ¬ NamesLocal (piecesText pieces) := by
  have hl : 'l' ∉ piecesText pieces := by
    intro hl
    exact absurd (isPieceChar_of_mem hl) (by simp [IsPieceChar])
  rintro (h | h | h)
  · rw [h] at hl
    exact hl (by decide)
  · exact hl (h.subset (by decide))
  · exact hl (h.subset (by decide))

/-- Which addresses of version 6 the check turns away. -/
theorem isPrivateHostname_ipv6 (h : hostname.toList = address.text) :
    isPrivateHostname hostname = true ↔ StartsPrivate (piecesText (pieceValues address)) := by
  have hplain : ∀ c ∈ piecesText (pieceValues address), c.isUpper = false ∧ c ≠ '[' ∧ c ≠ ']' :=
    fun c hc => plain_of_isPieceChar (isPieceChar_of_mem hc)
  have hupper : ∀ c ∈ address.text, c.isUpper = false := by
    intro c hc
    simp only [Ipv6.text, List.cons_append, List.mem_cons, List.mem_append] at hc
    rcases hc with rfl | hc | rfl | hc
    · decide
    · exact (hplain c hc).1
    · decide
    · cases hc
  have htext : withoutBrackets (hostname.toList.map Char.toLower) =
      piecesText (pieceValues address) := by
    rw [h, map_toLower hupper, Ipv6.text, withoutBrackets_brackets]
    rfl
  have hdot : '.' ∉ piecesText (pieceValues address) := by
    intro hdot
    exact absurd (isPieceChar_of_mem hdot) (by simp [IsPieceChar])
  rw [isPrivateHostname_iff htext, isPrivateAddress_of_not_mem hdot]
  simp [not_namesLocal_pieces]

theorem pieceValues_eq (address : Ipv6) :
    ∃ next pieces, pieceValues address = address.first :: next :: pieces := by
  obtain ⟨pieces, hlength⟩ := address
  match pieces with
  | first :: next :: rest => exact ⟨next.toNat, rest.map (·.toNat), rfl⟩
  | [first] => simp at hlength
  | [] => simp at hlength

theorem startsPrivate_of_uniqueLocal (h : address.IsUniqueLocal) :
    StartsPrivate (piecesText (pieceValues address)) := by
  obtain ⟨next, pieces, hvalues⟩ := pieceValues_eq address
  obtain ⟨hlow, hhigh⟩ := h
  obtain ⟨rest, htext⟩ := piecesText_of_ne_zero (by omega : address.first ≠ 0) next pieces
  rw [hvalues, htext, toDigits_four (by omega) (by omega)]
  have hfirst : address.first / 4096 = 15 := by omega
  have hsecond : address.first / 256 % 16 = 12 ∨ address.first / 256 % 16 = 13 := by omega
  rw [hfirst]
  rcases hsecond with hsecond | hsecond
  · rw [hsecond]
    exact Or.inr (Or.inl ⟨_, rfl⟩)
  · rw [hsecond]
    exact Or.inr (Or.inr (Or.inl ⟨_, rfl⟩))

theorem startsPrivate_of_linkLocal (h : address.IsLinkLocal) :
    StartsPrivate (piecesText (pieceValues address)) ↔ address.first = 0xfe80 := by
  obtain ⟨next, pieces, hvalues⟩ := pieceValues_eq address
  obtain ⟨hlow, hhigh⟩ := h
  obtain ⟨rest, htext⟩ := piecesText_of_ne_zero (by omega : address.first ≠ 0) next pieces
  rw [hvalues, htext, toDigits_four (by omega) (by omega)]
  have hfirst : address.first / 4096 = 15 := by omega
  have hsecond : address.first / 256 % 16 = 14 := by omega
  rw [hfirst, hsecond]
  constructor
  · rintro (heq | ⟨_, heq⟩ | ⟨_, heq⟩ | ⟨_, heq⟩)
    · cases heq
    · cases heq
    · cases heq
    · obtain ⟨-, -, hthird, hlast, -⟩ : 'f' = Nat.digitChar 15 ∧ 'e' = Nat.digitChar 14 ∧
          address.first / 16 % 16 = 8 ∧ address.first % 16 = 0 ∧ _ := by simpa using heq
      omega
  · intro heq
    rw [heq]
    exact Or.inr (Or.inr (Or.inr ⟨_, rfl⟩))

/-- An internal address of version 6 that the check does not know. -/
def EscapesCheck (address : Ipv6) : Prop :=
  address.IsUnspecified ∨ (address.IsLinkLocal ∧ address.first ≠ 0xfe80) ∨
    ∃ inner, address.mapped = some inner ∧ inner.IsInternal

theorem not_startsPrivate_unspecified (h : address.IsUnspecified) :
    ¬ StartsPrivate (piecesText (pieceValues address)) := by
  have htext : piecesText (pieceValues address) = "::".toList := by
    rw [pieceValues, show address.pieces = List.replicate 8 0 from h]
    decide
  rw [htext, StartsPrivate]
  decide

theorem startsPrivate_of_loopback (h : address.IsLoopback) :
    StartsPrivate (piecesText (pieceValues address)) := by
  have htext : piecesText (pieceValues address) = "::1".toList := by
    rw [pieceValues, show address.pieces = List.replicate 7 0 ++ [1] from h]
    decide
  exact Or.inl htext

theorem zeroRun_le_length (pieces : List ℕ) : zeroRun pieces ≤ pieces.length :=
  (List.takeWhile_sublist _).length_le

theorem compressed_mapped (high low : ℕ) :
    compressed [0, 0, 0, 0, 0, 65535, high, low] = some 0 := by
  have hhigh : zeroRun [high, low] ≤ 2 := zeroRun_le_length _
  have hlow : zeroRun [low] ≤ 1 := zeroRun_le_length _
  have hruns : [0, 0, 0, 0, 0, 65535, high, low].tails.map zeroRun =
      [5, 4, 3, 2, 1, 0, zeroRun [high, low], zeroRun [low], 0] := rfl
  have hlongest :
      ([0, 0, 0, 0, 0, 65535, high, low].tails.map zeroRun).foldl max 0 = 5 := by
    rw [hruns]
    simp only [List.foldl_cons, List.foldl_nil]
    omega
  rw [compressed, hlongest]
  rfl

theorem not_startsPrivate_mapped {inner : Ipv4} (h : address.mapped = some inner) :
    ¬ StartsPrivate (piecesText (pieceValues address)) := by
  obtain ⟨high, low, hpieces⟩ :
      ∃ high low, pieceValues address = [0, 0, 0, 0, 0, 65535, high, low] := by
    rw [Ipv6.mapped] at h
    split at h
    · rename_i high low heq
      exact ⟨high.toNat, low.toNat, by rw [pieceValues, heq]; rfl⟩
    · cases h
  have htext : ∃ rest, piecesText (pieceValues address) = "::ffff".toList ++ rest := by
    rw [hpieces, piecesText, compressed_mapped]
    exact ⟨':' :: [':'].intercalate ([high, low].map (Nat.toDigits 16)), rfl⟩
  obtain ⟨rest, htext⟩ := htext
  rw [htext]
  rintro (heq | ⟨_, heq⟩ | ⟨_, heq⟩ | ⟨_, heq⟩)
  all_goals cases heq

theorem EscapesCheck.isInternal {address : Ipv6} (h : EscapesCheck address) :
    address.IsInternal := by
  rcases h with h | ⟨h, -⟩ | h
  · exact Or.inl h
  · exact Or.inr (Or.inr (Or.inl h))
  · exact Or.inr (Or.inr (Or.inr (Or.inr h)))

theorem internal_ipv6_passes_iff (h : hostname.toList = address.text)
    (hinternal : address.IsInternal) :
    isPrivateHostname hostname = false ↔ EscapesCheck address := by
  rw [← Bool.not_eq_true, isPrivateHostname_ipv6 h]
  constructor
  · intro hnot
    rcases hinternal with hunspecified | hloopback | hlink | hunique | hmapped
    · exact Or.inl hunspecified
    · exact absurd (startsPrivate_of_loopback hloopback) hnot
    · exact Or.inr (Or.inl ⟨hlink, fun hfirst =>
        hnot ((startsPrivate_of_linkLocal hlink).mpr hfirst)⟩)
    · exact absurd (startsPrivate_of_uniqueLocal hunique) hnot
    · exact Or.inr (Or.inr hmapped)
  · rintro (hunspecified | ⟨hlink, hfirst⟩ | ⟨inner, hmapped, -⟩)
    · exact not_startsPrivate_unspecified hunspecified
    · exact fun hstarts => hfirst ((startsPrivate_of_linkLocal hlink).mp hstarts)
    · exact not_startsPrivate_mapped hmapped

end Ipv6

/-! ## Hosts that fit -/

/-- The hosts on which the check and its purpose agree. -/
def FitsCheck : Host → Prop
  | .dns name =>
    (HasTrailingDot name → LeadsLikePrivate name) ∧ (name.IsPublic → ¬ LeadsLikePrivate name)
  | .ipv4 _ => True
  | .ipv6 address => ¬ EscapesCheck address

/-- On a host that fits, what passes is not internal. -/
theorem FitsCheck.not_internal {hostname : String} {host : Host} (hfits : FitsCheck host)
    (h : hostname.toList = host.text) (hpasses : isPrivateHostname hostname = false) :
    ¬ host.IsInternal := by
  intro hinternal
  cases host with
  | dns name =>
    obtain ⟨hdot, hleads⟩ := (localhost_passes_iff h hinternal).mp hpasses
    exact hleads (hfits.1 hdot)
  | ipv4 address =>
    rw [isPrivateHostname_ipv4 h hinternal] at hpasses
    cases hpasses
  | ipv6 address => exact hfits ((internal_ipv6_passes_iff h hinternal).mp hpasses)

/-! ## What the check promises -/

section Promise

variable [Platform]

/-- A URL that the check judges by its host alone. -/
def JudgedByHost (url : Url) : Prop :=
  url.protocol = "https:" ∧ url.username = "" ∧ url.password = "" ∧ url.hash = ""

/-- The check accepts a text only for a URL of a host that is not internal, and turns no public
name away. -/
def AdmitsPublicHosts (value : String) : Prop :=
  (validateJwksUrl value = .ok () →
    ∃ url, Platform.parseUrl value = some url ∧ url.protocol = "https:" ∧
      ∀ host : Host, url.hostname.toList = host.text → ¬ host.IsInternal) ∧
  ∀ url (name : DnsName), Platform.parseUrl value = some url → JudgedByHost url →
    url.hostname.toList = name.text → name.IsPublic → validateJwksUrl value = .ok ()

theorem validateJwksUrl_ok_iff {value : String} {url : Url}
    (h : Platform.parseUrl value = some url) :
    validateJwksUrl value = .ok () ↔ JudgedByHost url ∧ isPrivateHostname url.hostname = false := by
  simp only [validateJwksUrl, h, JudgedByHost]
  split_ifs with hrefused
  · simp only [false_iff, not_and]
    rintro ⟨hprotocol, husername, hpassword, hhash⟩
    simpa [hprotocol, husername, hpassword, hhash] using hrefused
  · push Not at hrefused
    simpa [and_assoc] using hrefused

/-- The check keeps its promise on a text exactly when the host of its URL is one that it reads
rightly: no name in `localhost` with a trailing dot, unless it starts with `fc` or `fd`; no public
name that starts so; no unspecified address of version 6, no link-local one outside `fe80::/16`,
and no mapped form of an internal address of version 4. -/
theorem admitsPublicHosts_iff (value : String) :
    AdmitsPublicHosts value ↔
      ∀ url (host : Host), Platform.parseUrl value = some url → JudgedByHost url →
        url.hostname.toList = host.text → FitsCheck host := by
  constructor
  · rintro ⟨hinside, hpublic⟩ url host hurl hjudged htext
    have hrefused : host.IsInternal → isPrivateHostname url.hostname ≠ false := by
      intro hinternal hpasses
      obtain ⟨url', hurl', -, houtside⟩ :=
        hinside ((validateJwksUrl_ok_iff hurl).mpr ⟨hjudged, hpasses⟩)
      obtain rfl : url = url' := Option.some.inj (hurl.symm.trans hurl')
      exact houtside host htext hinternal
    cases host with
    | dns name =>
      constructor
      · intro hdot
        by_contra hleads
        have hlocal := (isLocalhost_iff name).mpr (Or.inr (Or.inr hdot))
        exact hrefused hlocal ((localhost_passes_iff htext hlocal).mpr ⟨hdot, hleads⟩)
      · intro hname
        have hok := hpublic url name hurl hjudged htext hname
        exact (public_passes_iff htext hname).mp ((validateJwksUrl_ok_iff hurl).mp hok).2
    | ipv4 address => trivial
    | ipv6 address =>
      intro hescapes
      have hinternal := hescapes.isInternal
      exact hrefused hinternal ((internal_ipv6_passes_iff htext hinternal).mpr hescapes)
  · intro hfits
    constructor
    · intro hok
      cases hurl : Platform.parseUrl value with
      | none => simp [validateJwksUrl, hurl] at hok
      | some url =>
        obtain ⟨hjudged, hpasses⟩ := (validateJwksUrl_ok_iff hurl).mp hok
        exact ⟨url, rfl, hjudged.1, fun host htext =>
          (hfits url host hurl hjudged htext).not_internal htext hpasses⟩
    · intro url name hurl hjudged htext hname
      have hleads := (hfits url (.dns name) hurl hjudged htext).2 hname
      exact (validateJwksUrl_ok_iff hurl).mpr ⟨hjudged, (public_passes_iff htext hname).mpr hleads⟩

end Promise

namespace JwksExample

/-- `https://[fe90::1]/keys` as the parser reads it. -/
def linkLocalUrl : Url where
  protocol := "https:"
  username := ""
  password := ""
  hostname := "[fe90::1]"
  pathname := "/keys"
  search := ""
  hash := ""

@[reducible] def platform : Platform :=
  { samplePlatform with
    parseUrl := fun value => if value = "https://[fe90::1]/keys" then some linkLocalUrl else none }

def linkLocal : Ipv6 := ⟨[0xfe90, 0, 0, 0, 0, 0, 0, 1], rfl⟩

/-- A link-local address passes. -/
theorem link_local_admitted : ¬ @AdmitsPublicHosts platform "https://[fe90::1]/keys" := by
  intro hadmits
  have hparse : @Platform.parseUrl platform "https://[fe90::1]/keys" = some linkLocalUrl := rfl
  have htext : linkLocalUrl.hostname.toList = linkLocal.text := by decide
  have hlink : linkLocal.IsLinkLocal := ⟨by decide, by decide⟩
  obtain ⟨url, hurl, -, houtside⟩ := hadmits.1 (by decide +kernel)
  obtain rfl : linkLocalUrl = url := Option.some.inj (hparse.symm.trans hurl)
  exact houtside (.ipv6 linkLocal) htext (Or.inr (Or.inr (Or.inl hlink)))

end JwksExample

end Realmroot
