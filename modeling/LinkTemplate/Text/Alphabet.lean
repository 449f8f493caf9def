/-!
# Alphabets and the character classes of URIs

Template text is a list of characters. Percent-encoding looks at a character only through its
Unicode number, so the codec is written once for every *alphabet*: a type whose members are told
apart by their number and which holds the ASCII characters.

Two alphabets matter. `Char` holds the Unicode scalar values and is what templates are made of.
`CodePoint` holds every number below `0x110000`, surrogates included, and is what the codec can
still escape when text comes from a source that allows lone surrogates.

The classes at the end (`isAlpha`, `isDigit`, …) are those of RFC 3986. They are ASCII classes:
no character above `0x7F` is in any of them.
-/

namespace LinkTemplate

/-- Text is read and written one character at a time. -/
abbrev Text := List Char

/-- A type of characters that are told apart by their Unicode number and include ASCII. -/
class Alphabet (α : Type) where
  /-- The Unicode number of a character. -/
  code : α → Nat
  /-- The character with an ASCII number. -/
  ascii : Fin 128 → α
  code_lt : ∀ a, code a < 0x110000
  code_injective : ∀ {a b}, code a = code b → a = b
  code_ascii : ∀ n, code (ascii n) = n.val

export Alphabet (code)

instance : Alphabet Char where
  code := Char.toNat
  ascii n := Char.ofNat n.val
  code_lt c := by
    have h : c.toNat.isValidChar := c.valid
    rcases h with h | h <;> omega
  code_injective h := Char.toNat_inj.mp h
  code_ascii n := by
    have hn : n.val.isValidChar := Or.inl (by omega)
    rw [Char.ofNat, dif_pos hn]
    rfl

/-! ## Code points -/

/-- A Unicode code point, which may be a surrogate. -/
structure CodePoint where
  /-- The number of the code point. -/
  number : Nat
  number_lt : number < 0x110000
  deriving DecidableEq

instance : Alphabet CodePoint where
  code := CodePoint.number
  ascii n := ⟨n.val, by omega⟩
  code_lt := CodePoint.number_lt
  code_injective {a b} h := by
    cases a
    cases b
    simpa using h
  code_ascii _ := rfl

/-- A number as a code point, when it is one. -/
def CodePoint.ofNat? (n : Nat) : Option CodePoint :=
  if h : n < 0x110000 then some ⟨n, h⟩ else none

/-! ## Character classes -/

variable {α : Type} [Alphabet α]

/-- The number of `a` lies from `low` to `high`, both included. -/
def between (low high : Nat) (a : α) : Bool := low ≤ code a && code a ≤ high

/-- `a` is one of the listed characters. -/
def oneOf (chars : List Char) (a : α) : Bool := chars.any fun c => code a == c.toNat

/-- `ALPHA`: the ASCII letters. -/
def isAlpha (a : α) : Bool := between 0x41 0x5A a || between 0x61 0x7A a

/-- `DIGIT`: the ASCII digits. -/
def isDigit (a : α) : Bool := between 0x30 0x39 a

/-- `HEXDIG`, in either case. -/
def isHexDigit (a : α) : Bool := isDigit a || between 0x41 0x46 a || between 0x61 0x66 a

/-- The characters that never need escaping. -/
def isUnreserved (a : α) : Bool := isAlpha a || isDigit a || oneOf ['-', '.', '_', '~'] a

/-- `gen-delims`, which separate the parts of a URI. -/
def isGenDelim (a : α) : Bool := oneOf [':', '/', '?', '#', '[', ']', '@'] a

/-- `sub-delims`, which separate within a part. -/
def isSubDelim (a : α) : Bool := oneOf ['!', '$', '&', '\'', '(', ')', '*', '+', ',', ';', '='] a

/-- The characters that may carry structure in a URI. -/
def isReserved (a : α) : Bool := isGenDelim a || isSubDelim a

/-- Every character that may stand in a URI for itself. -/
def isUriChar (a : α) : Bool := isUnreserved a || isReserved a

/-- `%`, which opens an escape. -/
def isPercent (a : α) : Bool := code a == 0x25

/-- The character `%`. -/
def percent : α := Alphabet.ascii 0x25

theorem code_percent : code (percent : α) = 0x25 := Alphabet.code_ascii 0x25

theorem isPercent_percent : isPercent (percent : α) = true := by
  simp [isPercent, code_percent]

theorem eq_percent_of_isPercent {a : α} (h : isPercent a = true) : a = percent := by
  apply Alphabet.code_injective
  simpa [isPercent, code_percent] using h

/-- No escape is opened by a hex digit. -/
theorem isPercent_eq_false_of_isHexDigit {a : α} (h : isHexDigit a = true) :
    isPercent a = false := by
  simp only [isHexDigit, isDigit, between, Bool.or_eq_true, Bool.and_eq_true,
    decide_eq_true_eq] at h
  simp only [isPercent, beq_eq_false_iff_ne]
  omega

/-- `%` is not a URI character of its own. -/
theorem isUriChar_percent : isUriChar (percent : α) = false := by
  simp [isUriChar, isUnreserved, isReserved, isGenDelim, isSubDelim, isAlpha, isDigit, between,
    oneOf, code_percent]

end LinkTemplate
