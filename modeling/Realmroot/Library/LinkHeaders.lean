import Realmroot.Library.Words

/-!
# Link headers

A `Link` header is a list of links, each a target in angle brackets followed by parameters. A
parameter has a name and perhaps a value, a token or a quoted string in which any character may
be escaped. The relation types of a link are the words of its first `rel` parameter.
-/

namespace LinkHeaders

/-! ## Characters -/

/-- A space or a tab. -/
def isBlank (c : Char) : Bool := c = ' ' || c = '\t'

/-- `tchar`. -/
def isTokenCharacter (c : Char) : Bool :=
  c.toNat = 0x21 || (0x23 ≤ c.toNat && c.toNat ≤ 0x27) || c.toNat = 0x2a || c.toNat = 0x2b ||
    c.toNat = 0x2d || c.toNat = 0x2e || (0x30 ≤ c.toNat && c.toNat ≤ 0x39) ||
    (0x41 ≤ c.toNat && c.toNat ≤ 0x5a) || (0x5e ≤ c.toNat && c.toNat ≤ 0x7a) ||
    c.toNat = 0x7c || c.toNat = 0x7e

/-- `qdtext`: what stands in a quoted string unescaped. -/
def isQuotedText (c : Char) : Bool :=
  c.toNat = 0x9 || c.toNat = 0x20 || c.toNat = 0x21 || (0x23 ≤ c.toNat && c.toNat ≤ 0x5b) ||
    (0x5d ≤ c.toNat && c.toNat ≤ 0x7e) || (0x80 ≤ c.toNat && c.toNat ≤ 0xff)

/-- What stands in a quoted string after a backslash. -/
def isQuotable (c : Char) : Bool :=
  c.toNat = 0x9 || (0x20 ≤ c.toNat && c.toNat ≤ 0x7e) || (0x80 ≤ c.toNat && c.toNat ≤ 0xff)

/-- The characters of a URI reference: reserved, unreserved and the percent sign. -/
def isTargetCharacter (c : Char) : Bool :=
  c.isAlphanum || c ∈ "-._~:/?#[]@!$&'()*+,;=%".toList

/-! ## Syntax -/

/-- A text of characters of one kind. -/
abbrev Text (kind : Char → Bool) : Type := {chars : List Char // ∀ c ∈ chars, kind c = true}

structure Token where
  chars : List Char
  nonempty : chars ≠ []
  valid : ∀ c ∈ chars, isTokenCharacter c = true

inductive QuotedPart
  | text (c : Char) (h : isQuotedText c = true)
  | pair (c : Char) (h : isQuotable c = true)

/-- The character that a part stands for. -/
def QuotedPart.char : QuotedPart → Char
  | text c _ => c
  | pair c _ => c

/-- How a part is written. -/
def QuotedPart.written : QuotedPart → List Char
  | text c _ => [c]
  | pair c _ => ['\\', c]

inductive ParameterValue
  | token (value : Token)
  | quoted (parts : List QuotedPart)

/-- The characters of a value, its escapes resolved. -/
def ParameterValue.chars : ParameterValue → List Char
  | token value => value.chars
  | quoted parts => parts.map QuotedPart.char

/-- How a value is written. -/
def ParameterValue.written : ParameterValue → List Char
  | token value => value.chars
  | quoted parts => '"' :: (parts.flatMap QuotedPart.written ++ ['"'])

/-- An equals sign and a value, with blanks around the sign. -/
structure Assignment where
  before : Text isBlank
  after : Text isBlank
  value : ParameterValue

def Assignment.written (a : Assignment) : List Char :=
  a.before.val ++ '=' :: (a.after.val ++ a.value.written)

/-- A semicolon with blanks around it, a name and perhaps a value. -/
structure Parameter where
  before : Text isBlank
  after : Text isBlank
  name : Token
  assignment : Option Assignment

namespace Parameter

variable (p : Parameter)

/-- How the value of a parameter is written, if it has one. -/
def assigned : List Char := (p.assignment.map Assignment.written).getD []

def written : List Char :=
  p.before.val ++ ';' :: (p.after.val ++ (p.name.chars ++ p.assigned))

/-- The value of a parameter, empty when it has none. -/
def content : List Char := (p.assignment.map fun a => a.value.chars).getD []

/-- Names of parameters are compared without regard to case. -/
def isNamed (name : String) : Bool := p.name.chars.map Char.toLower = name.toList

end Parameter

structure LinkValue where
  target : Text isTargetCharacter
  parameters : List Parameter

namespace LinkValue

variable (v : LinkValue)

def parametersWritten : List Char := v.parameters.flatMap Parameter.written

def written : List Char := '<' :: (v.target.val ++ '>' :: v.parametersWritten)

/-- The relation types of a link: the words of its first `rel` parameter. -/
def relationTypes : List (List Char) :=
  match v.parameters.find? (·.isNamed "rel") with
  | some p => Words.words isBlank p.content
  | none => []

/-- Relation types are compared without regard to case. -/
def HasRelation (relation : String) : Prop :=
  ∃ word ∈ v.relationTypes, word.map Char.toLower = relation.toList

instance (relation : String) : Decidable (v.HasRelation relation) :=
  inferInstanceAs (Decidable (∃ word ∈ v.relationTypes, word.map Char.toLower = relation.toList))

end LinkValue

/-- An element of the list, which a recipient accepts empty as well. -/
structure Element where
  before : Text isBlank
  link : Option LinkValue
  after : Text isBlank

def Element.written (e : Element) : List Char :=
  e.before.val ++ ((e.link.map LinkValue.written).getD [] ++ e.after.val)

/-- The header that lists these elements. -/
def written (elements : List Element) : List Char :=
  Words.unwords ',' (elements.map Element.written)

def links (elements : List Element) : List LinkValue := elements.filterMap Element.link

/-- The first link that has a relation. -/
def firstRelated (relation : String) (elements : List Element) : Option LinkValue :=
  (links elements).find? fun v => v.HasRelation relation

end LinkHeaders
