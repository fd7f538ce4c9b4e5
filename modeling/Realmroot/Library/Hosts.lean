import Mathlib.Data.List.Basic
import Mathlib.Data.List.Infix
import Mathlib.Tactic.NormNum

/-!
# Hosts

The hosts of special URLs as the URL standard normalises and writes them: domain names in lower
case, addresses of version 4 in decimal, and addresses of version 6 in hexadecimal with the first
longest run of zeros compressed. The classes of addresses and names are those of the standards
that reserve them.
-/

namespace Hosts

/-- The labels between the dots of a text. -/
def labels (text : List Char) : List (List Char) := text.splitOn '.'

theorem labels_of_not_mem {text : List Char} (h : '.' ∉ text) : labels text = [text] :=
  List.splitOn_eq_singleton h

/-! ## Names -/

/-- The characters that a normalised domain may have. -/
def isDomainChar (c : Char) : Bool :=
  '!' ≤ c && c ≤ '~' && !c.isUpper && !"#/:<>?@[\\]^|%".toList.contains c

/-- What the parser takes for the last part of an address of version 4. -/
def isNumberLabel (label : List Char) : Bool :=
  (label ≠ [] && label.all Char.isDigit) ||
    match label with
    | '0' :: 'x' :: digits => digits.all fun c => c.isDigit || ('a' ≤ c && c ≤ 'f')
    | _ => false

/-- A text that the parser reads as an address of version 4, or not at all. -/
def endsInNumber (text : List Char) : Bool :=
  match (labels text).reverse with
  | [] :: label :: _ => isNumberLabel label
  | label :: _ => isNumberLabel label
  | [] => false

structure DnsName where
  text : List Char
  nonempty : text ≠ []
  chars : ∀ c ∈ text, isDomainChar c = true
  not_number : endsInNumber text = false

namespace DnsName

/-- A name in a domain, with or without the trailing dot. -/
def IsIn (domain : List Char) (name : DnsName) : Prop :=
  '.' :: domain <:+ name.text ∨ '.' :: domain ++ ['.'] <:+ name.text

def IsLocalhost (name : DnsName) : Prop :=
  name.text = "localhost".toList ∨ name.text = "localhost.".toList ∨
    name.IsIn "localhost".toList

/-- A name outside `localhost` and the domain of multicast names, with a label that starts with
a letter. -/
def IsPublic (name : DnsName) : Prop :=
  ¬ name.IsLocalhost ∧ ¬ name.IsIn "local".toList ∧
    ∃ label ∈ labels name.text, ∃ c rest, label = c :: rest ∧ c.isLower = true

instance (domain : List Char) (name : DnsName) : Decidable (name.IsIn domain) :=
  inferInstanceAs (Decidable (_ ∨ _))

instance (name : DnsName) : Decidable name.IsLocalhost := inferInstanceAs (Decidable (_ ∨ _ ∨ _))

end DnsName

/-! ## Addresses of version 4 -/

structure Ipv4 where
  a : UInt8
  b : UInt8
  c : UInt8
  d : UInt8
  deriving DecidableEq

namespace Ipv4

variable (address : Ipv4)

def octets : List ℕ := [address.a.toNat, address.b.toNat, address.c.toNat, address.d.toNat]

/-- The decimal octets, separated by dots. -/
def text : List Char := ['.'].intercalate (address.octets.map (Nat.toDigits 10))

def IsUnspecified : Prop := address = ⟨0, 0, 0, 0⟩

def IsLoopback : Prop := address.a = 127

def IsPrivate : Prop :=
  address.a = 10 ∨ (address.a = 172 ∧ 16 ≤ address.b ∧ address.b ≤ 31) ∨
    (address.a = 192 ∧ address.b = 168)

def IsLinkLocal : Prop := address.a = 169 ∧ address.b = 254

def IsInternal : Prop :=
  address.IsUnspecified ∨ address.IsLoopback ∨ address.IsPrivate ∨ address.IsLinkLocal

end Ipv4

/-! ## Addresses of version 6 -/

structure Ipv6 where
  pieces : List UInt16
  length_eq : pieces.length = 8
  deriving DecidableEq

/-- The zeros at the start of some pieces. -/
def zeroRun (pieces : List ℕ) : ℕ := (pieces.takeWhile (· = 0)).length

/-- Where the first longest run of zeros starts, if it is longer than one piece. -/
def compressed (pieces : List ℕ) : Option ℕ :=
  let longest := (pieces.tails.map zeroRun).foldl max 0
  if longest ≤ 1 then none else pieces.tails.findIdx? (zeroRun · = longest)

/-- The hexadecimal pieces, separated by colons; a run that is compressed leaves two colons. -/
def piecesText (pieces : List ℕ) : List Char :=
  match compressed pieces with
  | none => [':'].intercalate (pieces.map (Nat.toDigits 16))
  | some i =>
    (pieces.take i).flatMap (fun piece => Nat.toDigits 16 piece ++ [':']) ++
      (if i = 0 then "::".toList else ":".toList) ++
      [':'].intercalate (((pieces.drop i).dropWhile (· = 0)).map (Nat.toDigits 16))

namespace Ipv6

variable (address : Ipv6)

/-- An address between brackets. -/
def text : List Char := '[' :: piecesText (address.pieces.map (·.toNat)) ++ [']']

def first : ℕ := (address.pieces.head?.getD 0).toNat

def IsUnspecified : Prop := address.pieces = List.replicate 8 0

def IsLoopback : Prop := address.pieces = List.replicate 7 0 ++ [1]

/-- `fe80::/10`. -/
def IsLinkLocal : Prop := 0xfe80 ≤ address.first ∧ address.first ≤ 0xfebf

/-- `fc00::/7`. -/
def IsUniqueLocal : Prop := 0xfc00 ≤ address.first ∧ address.first ≤ 0xfdff

/-- The address of version 4 that is mapped into `::ffff:0:0/96`. -/
def mapped : Option Ipv4 :=
  match address.pieces with
  | [0, 0, 0, 0, 0, 0xffff, high, low] =>
    some ⟨(high >>> 8).toUInt8, high.toUInt8, (low >>> 8).toUInt8, low.toUInt8⟩
  | _ => none

def IsInternal : Prop :=
  address.IsUnspecified ∨ address.IsLoopback ∨ address.IsLinkLocal ∨ address.IsUniqueLocal ∨
    ∃ inner, address.mapped = some inner ∧ inner.IsInternal

end Ipv6

/-! ## Hosts -/

inductive Host where
  | dns (name : DnsName)
  | ipv4 (address : Ipv4)
  | ipv6 (address : Ipv6)

namespace Host

def text : Host → List Char
  | .dns name => name.text
  | .ipv4 address => address.text
  | .ipv6 address => address.text

/-- A host that no request from outside may name. -/
def IsInternal : Host → Prop
  | .dns name => name.IsLocalhost
  | .ipv4 address => address.IsInternal
  | .ipv6 address => address.IsInternal

end Host

example : piecesText [0xfe90, 0, 0, 0, 1, 0, 0, 7] = "fe90::1:0:0:7".toList := by decide

example : piecesText [0, 0, 0, 0, 0, 0xffff, 0x7f00, 1] = "::ffff:7f00:1".toList := by decide

/-! ## Digits -/

theorem mem_toDigits_sixteen {n : ℕ} {c : Char} (h : c ∈ Nat.toDigits 16 n) :
    c.isDigit = true ∨ ('a' ≤ c ∧ c ≤ 'f') := by
  have hdigit : ∀ d < 16, (Nat.digitChar d).isDigit = true ∨
      ('a' ≤ Nat.digitChar d ∧ Nat.digitChar d ≤ 'f') := by decide
  induction n using Nat.strong_induction_on with
  | _ n ih =>
    rw [Nat.toDigits_eq_if (by norm_num)] at h
    split_ifs at h with hlt
    · rw [List.mem_singleton.mp h]
      exact hdigit n hlt
    · rcases List.mem_append.mp h with h | h
      · exact ih (n / 16) (by omega) h
      · rw [List.mem_singleton.mp h]
        exact hdigit (n % 16) (by omega)

/-- The four digits of a piece that has as many. -/
theorem toDigits_four {n : ℕ} (hle : 4096 ≤ n) (hlt : n < 65536) :
    Nat.toDigits 16 n = [Nat.digitChar (n / 4096), Nat.digitChar (n / 256 % 16),
      Nat.digitChar (n / 16 % 16), Nat.digitChar (n % 16)] := by
  rw [Nat.toDigits_of_base_le (by norm_num) (by omega : 16 ≤ n),
    Nat.toDigits_of_base_le (by norm_num) (by omega : 16 ≤ n / 16),
    Nat.toDigits_of_base_le (by norm_num) (by omega : 16 ≤ n / 16 / 16),
    Nat.toDigits_of_lt_base (by omega : n / 16 / 16 / 16 < 16)]
  have hfirst : n / 16 / 16 / 16 = n / 4096 := by omega
  have hsecond : n / 16 / 16 % 16 = n / 256 % 16 := by omega
  rw [hfirst, hsecond]
  rfl

/-! ## Texts of addresses -/

theorem mem_intercalate {sep : List Char} {texts : List (List Char)} {c : Char}
    (h : c ∈ sep.intercalate texts) : c ∈ sep ∨ ∃ text ∈ texts, c ∈ text := by
  induction texts with
  | nil => simp at h
  | cons text texts ih =>
    cases texts with
    | nil => exact Or.inr ⟨text, by simp, by simpa using h⟩
    | cons next texts =>
      rw [List.intercalate_cons_cons] at h
      simp only [List.mem_append] at h
      rcases h with (h | h) | h
      · exact Or.inr ⟨text, by simp, h⟩
      · exact Or.inl h
      · rcases ih h with h | ⟨text', htext', h⟩
        · exact Or.inl h
        · exact Or.inr ⟨text', List.mem_cons_of_mem _ htext', h⟩

/-- A hexadecimal digit or a colon. -/
def IsPieceChar (c : Char) : Prop := c = ':' ∨ c.isDigit = true ∨ ('a' ≤ c ∧ c ≤ 'f')

theorem isPieceChar_intercalate {pieces : List ℕ} {c : Char}
    (h : c ∈ [':'].intercalate (pieces.map (Nat.toDigits 16))) : IsPieceChar c := by
  rcases mem_intercalate h with h | ⟨text, htext, hc⟩
  · exact Or.inl (List.mem_singleton.mp h)
  · obtain ⟨piece, -, rfl⟩ := List.mem_map.mp htext
    exact Or.inr (mem_toDigits_sixteen hc)

theorem isPieceChar_of_mem {pieces : List ℕ} {c : Char} (h : c ∈ piecesText pieces) :
    IsPieceChar c := by
  rw [piecesText] at h
  split at h
  · exact isPieceChar_intercalate h
  · simp only [List.mem_append, List.mem_flatMap] at h
    rcases h with (⟨piece, -, h | h⟩ | h) | h
    · exact Or.inr (mem_toDigits_sixteen h)
    · exact Or.inl (List.mem_singleton.mp h)
    · split_ifs at h
      · exact Or.inl (by simpa using h)
      · exact Or.inl (by simpa using h)
    · exact isPieceChar_intercalate h

theorem zeroRun_cons_of_ne_zero {piece : ℕ} (h : piece ≠ 0) (pieces : List ℕ) :
    zeroRun (piece :: pieces) = 0 := by
  simp [zeroRun, h]

/-- No run is compressed at a piece that is not zero. -/
theorem compressed_ne_zero {piece i : ℕ} {pieces : List ℕ} (h : piece ≠ 0)
    (hi : compressed (piece :: pieces) = some i) : i ≠ 0 := by
  rintro rfl
  simp only [compressed] at hi
  generalize ((piece :: pieces).tails.map zeroRun).foldl max 0 = longest at hi
  split_ifs at hi with hlongest
  rw [List.tails_cons, List.findIdx?_cons] at hi
  split_ifs at hi with hrun
  · simp only [zeroRun_cons_of_ne_zero h, decide_eq_true_eq] at hrun
    omega
  · simp at hi

/-- An address whose first piece is not zero starts with the digits of that piece and a colon. -/
theorem piecesText_of_ne_zero {piece : ℕ} (h : piece ≠ 0) (next : ℕ) (pieces : List ℕ) :
    ∃ rest, piecesText (piece :: next :: pieces) = Nat.toDigits 16 piece ++ ':' :: rest := by
  rw [piecesText]
  split
  · exact ⟨[':'].intercalate ((next :: pieces).map (Nat.toDigits 16)), by
      simp [List.intercalate_cons_cons]⟩
  · rename_i i hi
    obtain ⟨j, rfl⟩ := Nat.exists_eq_succ_of_ne_zero (compressed_ne_zero h hi)
    rw [List.take_succ_cons, List.flatMap_cons, List.append_assoc, List.append_assoc,
      List.append_assoc]
    exact ⟨_, rfl⟩

/-- An address whose first piece is zero starts with a zero or a colon. -/
theorem piecesText_of_zero (next : ℕ) (pieces : List ℕ) :
    ∃ rest, piecesText (0 :: next :: pieces) = '0' :: rest ∨
      piecesText (0 :: next :: pieces) = ':' :: rest := by
  rw [piecesText]
  split
  · exact ⟨':' :: [':'].intercalate ((next :: pieces).map (Nat.toDigits 16)), by
      simp [List.intercalate_cons_cons]⟩
  · rename_i i _
    cases i with
    | zero => exact ⟨_, Or.inr rfl⟩
    | succ j =>
      rw [List.take_succ_cons, List.flatMap_cons, List.append_assoc, List.append_assoc,
        List.append_assoc]
      exact ⟨_, Or.inl rfl⟩

end Hosts
