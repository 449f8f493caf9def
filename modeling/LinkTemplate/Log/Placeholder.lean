import LinkTemplate.Text.Alphabet

/-!
# Placeholders

A message is a text in which *placeholders* stand for data. A placeholder is written as

    placeholder = "%" [ "(" name ")" ] *flag [ extent ] [ "." [ extent ] ] [ length ] letter
    flag        = "-" / "0" / "+" / " " / "#"
    extent      = 1*DIGIT / "*"
    length      = "h" / "l" / "L"

The name picks an entry and may hold parentheses if they pair up. The first extent is the width
and the one behind the point the precision; a star takes it from the data. The length means
nothing. The letter says what becomes of the datum. `%%` is no placeholder but a percent sign.

Reading a message takes it apart and judges nothing: a placeholder whose end is missing is a
piece like any other. `length_read_le` says that reading a placeholder goes forward.
-/

namespace LinkTemplate.Log

/-- What the flags of a placeholder ask for. -/
structure Flags where
  /-- `-`: blanks go behind. -/
  left : Bool := false
  /-- `0`: numbers are filled with zeros. -/
  zero : Bool := false
  /-- `+`: numbers show their sign. -/
  plus : Bool := false
  /-- A blank: numbers that are not negative start with one. -/
  blank : Bool := false
  /-- `#`: other bases are marked, and numbers with a point are written in full. -/
  full : Bool := false
  deriving DecidableEq, Inhabited

/-- A width or precision as it is written. -/
inductive Extent where
  | absent
  | digits (n : Nat)
  /-- The next argument gives it. -/
  | argument
  deriving DecidableEq, Inhabited

/-- Where a placeholder takes its datum from. -/
inductive Source where
  /-- The arguments, in order. -/
  | arguments
  /-- The entry with a name. -/
  | entry (name : Text)
  /-- A name that is not closed. -/
  | unclosed
  deriving DecidableEq, Inhabited

/-- A placeholder. -/
structure Placeholder where
  source : Source
  flags : Flags
  width : Extent
  precision : Extent
  /-- The last character, none if the message ends before it. -/
  letter : Option Char
  deriving DecidableEq, Inhabited

/-- A piece of a message. -/
inductive Piece where
  | char (c : Char)
  | placeholder (p : Placeholder)
  deriving DecidableEq, Inhabited

namespace Placeholder

/-! ## The parts of a placeholder

Each reader answers with its part and with the text behind it. -/

/-- A name up to the parenthesis that closes it, `depth` others being open within it. -/
def readName (depth : Nat) : Text → Option (Text × Text)
  | [] => none
  | c :: rest =>
    if c = ')' ∧ depth = 0 then some ([], rest)
    else
      let depth := if c = '(' then depth + 1 else if c = ')' then depth - 1 else depth
      (readName depth rest).map fun (name, behind) => (c :: name, behind)

/-- A name in parentheses, if there is one. -/
def readSource : Text → Source × Text
  | '(' :: rest =>
    match readName 0 rest with
    | some (name, behind) => (.entry name, behind)
    | none => (.unclosed, [])
  | text => (.arguments, text)

/-- Flags in any order. -/
def readFlags (flags : Flags) : Text → Flags × Text
  | '-' :: rest => readFlags { flags with left := true } rest
  | '0' :: rest => readFlags { flags with zero := true } rest
  | '+' :: rest => readFlags { flags with plus := true } rest
  | ' ' :: rest => readFlags { flags with blank := true } rest
  | '#' :: rest => readFlags { flags with full := true } rest
  | text => (flags, text)

/-- An extent, if there is one. -/
def readExtent : Text → Extent × Text
  | '*' :: rest => (.argument, rest)
  | text =>
    if (text.takeWhile isDigit).isEmpty then (.absent, text)
    else (.digits (Nat.ofDigitChars 10 (text.takeWhile isDigit) 0), text.dropWhile isDigit)

/-- A point and an extent; the point alone means zero. -/
def readPrecision : Text → Extent × Text
  | '.' :: rest =>
    match readExtent rest with
    | (.absent, behind) => (.digits 0, behind)
    | found => found
  | text => (.absent, text)

/-- A length, if there is one. -/
def skipLength : Text → Text
  | 'h' :: rest => rest
  | 'l' :: rest => rest
  | 'L' :: rest => rest
  | text => text

/-- The placeholder behind a percent sign. -/
def read (text : Text) : Placeholder × Text :=
  let (source, text) := readSource text
  let (flags, text) := readFlags {} text
  let (width, text) := readExtent text
  let (precision, text) := readPrecision text
  let text := skipLength text
  (⟨source, flags, width, precision, text.head?⟩, text.tail)

/-! ## Reading goes forward -/

theorem length_readName_lt {depth : Nat} {text name behind : Text}
    (h : readName depth text = some (name, behind)) : behind.length < text.length := by
  induction text generalizing depth name with
  | nil => simp [readName] at h
  | cons c rest ih =>
    unfold readName at h
    split at h
    · obtain ⟨-, rfl⟩ := Prod.mk.inj (Option.some.inj h)
      exact Nat.lt_succ_self _
    · obtain ⟨⟨name, behind⟩, hrest, heq⟩ := Option.map_eq_some_iff.1 h
      obtain ⟨-, rfl⟩ := Prod.mk.inj heq
      exact Nat.lt_succ_of_lt (ih hrest)

theorem length_readSource_le (text : Text) : (readSource text).2.length ≤ text.length := by
  unfold readSource
  split
  · split
    · rename_i h
      exact Nat.le_succ_of_le (Nat.le_of_lt (length_readName_lt h))
    · exact Nat.zero_le _
  · exact Nat.le_refl _

theorem length_readFlags_le (flags : Flags) (text : Text) :
    (readFlags flags text).2.length ≤ text.length := by
  fun_induction readFlags flags text with
  | case6 => exact Nat.le_refl _
  | _ => rename_i ih; exact Nat.le_succ_of_le ih

theorem length_readExtent_le (text : Text) : (readExtent text).2.length ≤ text.length := by
  unfold readExtent
  split
  · exact Nat.le_succ _
  · split
    · exact Nat.le_refl _
    · exact (List.dropWhile_suffix _).length_le

theorem length_readPrecision_le (text : Text) : (readPrecision text).2.length ≤ text.length := by
  unfold readPrecision
  split
  · rename_i rest
    have h := length_readExtent_le rest
    split
    · rename_i heq
      rw [heq] at h
      exact Nat.le_succ_of_le h
    · exact Nat.le_succ_of_le h
  · exact Nat.le_refl _

theorem length_skipLength_le (text : Text) : (skipLength text).length ≤ text.length := by
  unfold skipLength
  split <;> simp

/-- What stands behind a placeholder is no longer than what stands behind its percent sign. -/
theorem length_read_le (text : Text) : (read text).2.length ≤ text.length := by
  simp only [read]
  have source := length_readSource_le text
  have flags := length_readFlags_le {} (readSource text).2
  have width := length_readExtent_le (readFlags {} (readSource text).2).2
  have precision := length_readPrecision_le (readExtent (readFlags {} (readSource text).2).2).2
  have skipped := length_skipLength_le
    (readPrecision (readExtent (readFlags {} (readSource text).2).2).2).2
  rw [List.length_tail]
  omega

end Placeholder

/-- The pieces of a message. -/
def pieces : Text → List Piece
  | [] => []
  | '%' :: '%' :: rest => .char '%' :: pieces rest
  | '%' :: rest => .placeholder (Placeholder.read rest).1 :: pieces (Placeholder.read rest).2
  | c :: rest => .char c :: pieces rest
termination_by text => text.length
decreasing_by
  · simp only [List.length_cons]; omega
  · exact Nat.lt_succ_of_le (Placeholder.length_read_le rest)
  · exact Nat.lt_succ_self _

theorem pieces_char {c : Char} (h : c ≠ '%') (rest : Text) :
    pieces (c :: rest) = .char c :: pieces rest := by
  rw [pieces]
  · rintro _ rfl
    exact absurd rfl h
  · rintro rfl
    exact absurd rfl h

theorem pieces_placeholder {c : Char} (h : c ≠ '%') (rest : Text) :
    pieces ('%' :: c :: rest) = .placeholder (Placeholder.read (c :: rest)).1 ::
      pieces (Placeholder.read (c :: rest)).2 := by
  rw [pieces]
  rintro _ heq
  exact h (List.cons.inj heq).1

end LinkTemplate.Log
