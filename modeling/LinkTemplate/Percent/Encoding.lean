import LinkTemplate.Text.Alphabet

/-!
# Percent-encoding

A character that may not stand for itself is written as the octets of its UTF-8 form, each as
`%XX` with upper-case digits. A *policy* `allowed` says which characters stand for themselves.

* `Percent.quote` escapes character by character, so every `%` is data and becomes `%25` under a
  policy that refuses it.
* `Percent.encode` keeps escapes that are already there: a well-formed triplet `%XX` passes
  untouched, and only a `%` that starts none becomes `%25`.

`encode` reads its text once, from left to right, and holds back at most a `%` and one digit.
The characters held back are its only state, `Held`.
-/

namespace LinkTemplate.Percent

variable {α : Type} [Alphabet α]

/-! ## Escapes -/

/-- The UTF-8 octets of a code point number. Surrogates have three octets like their
neighbours. -/
def octets (n : Nat) : List Nat :=
  if n < 0x80 then [n]
  else if n < 0x800 then [0xC0 + n / 0x40, 0x80 + n % 0x40]
  else if n < 0x10000 then [0xE0 + n / 0x1000, 0x80 + n / 0x40 % 0x40, 0x80 + n % 0x40]
  else [0xF0 + n / 0x40000, 0x80 + n / 0x1000 % 0x40, 0x80 + n / 0x40 % 0x40, 0x80 + n % 0x40]

/-- The upper-case digit of a number below sixteen. -/
def hexDigit (n : Nat) : α :=
  if h : n % 16 < 10 then Alphabet.ascii ⟨0x30 + n % 16, by omega⟩
  else Alphabet.ascii ⟨0x37 + n % 16, by omega⟩

/-- One octet as `%XX`. -/
def escapeOctet (octet : Nat) : List α :=
  [percent, hexDigit (octet / 16), hexDigit (octet % 16)]

/-- The escape of one character. -/
def escape (a : α) : List α := (octets (code a)).flatMap escapeOctet

/-- A character under a policy: itself if allowed, its escape if not. -/
def write (allowed : α → Bool) (a : α) : List α := if allowed a then [a] else escape a

/-- Every character of a text under a policy. -/
def quote (allowed : α → Bool) (text : List α) : List α := text.flatMap (write allowed)

/-! ## Keeping the escapes of the text -/

/-- What has been read and not yet written. -/
inductive Held (α : Type) where
  | nothing
  /-- A `%`. -/
  | percent
  /-- A `%` and one hex digit. -/
  | percentDigit (digit : α)

/-- Give up the hope of a triplet: the `%` was data. -/
def Held.flush (allowed : α → Bool) : Held α → List α
  | .nothing => []
  | .percent => escape LinkTemplate.percent
  | .percentDigit digit => escape LinkTemplate.percent ++ write allowed digit

/-- Take a character that continues no triplet: flush, then start again at `a`. -/
def Held.restart (allowed : α → Bool) (held : Held α) (a : α) : List α × Held α :=
  if isPercent a then (held.flush allowed, .percent)
  else (held.flush allowed ++ write allowed a, .nothing)

/-- Take one character: what can be written now, and what is held back. -/
def Held.step (allowed : α → Bool) : Held α → α → List α × Held α
  | .nothing, a => Held.restart allowed .nothing a
  | .percent, a =>
    if isHexDigit a then ([], .percentDigit a) else Held.restart allowed .percent a
  | .percentDigit digit, a =>
    if isHexDigit a then ([LinkTemplate.percent, digit, a], .nothing)
    else Held.restart allowed (.percentDigit digit) a

/-- Encode a text that follows the characters held back. -/
def encodeFrom (allowed : α → Bool) (held : Held α) : List α → List α
  | [] => held.flush allowed
  | a :: rest =>
    (held.step allowed a).1 ++ encodeFrom allowed (held.step allowed a).2 rest

/-- Escape what `allowed` refuses and keep well-formed triplets. -/
def encode (allowed : α → Bool) (text : List α) : List α := encodeFrom allowed .nothing text

end LinkTemplate.Percent
