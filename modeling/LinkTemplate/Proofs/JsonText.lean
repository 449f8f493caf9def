import LinkTemplate.Log.Json
import LinkTemplate.Proofs.Traverse

/-!
# Reading JSON

A reader for JSON texts, which knows all of the format and not just what records are written with:
blanks between the parts, every escape, numbers, arrays and nested objects. It refuses what the
format refuses, such as control characters in a string, a lone half of a surrogate pair, or anything
behind the value. The members of an object come in the order in which they are written.

A string is read in two steps. First each character and each escape gives a number (`readCodes`);
then two numbers that are the halves of a surrogate pair become one character (`ofCodes`).

**Reading back** (`IsReadAs`). A text is read as a value, whatever follows it. Strings as they are
written for records are, and so are objects whose members are (`IsMember`): one member is read, and
the mark behind it tells whether another follows.

**Lines** (`IsUnbroken`). No control character stands in these texts, so they keep to one line.

Main results: `readString_flatMap`, `isReadAs_string`, `isReadAs_object`, `read?_of_isReadAs`,
`isUnbroken_object`.
-/

namespace LinkTemplate.Log.Json

open Text

/-- What a JSON text stands for. A number is kept as it is written. -/
inductive Value where
  | null
  | bool (b : Bool)
  | number (text : Text)
  | string (text : Text)
  | array (items : List Value)
  | object (members : List (Text × Value))

/-! ## Strings -/

def hexValue? (c : Char) : Option Nat :=
  if c.isDigit then some (c.toNat - '0'.toNat)
  else if 'a' ≤ c ∧ c ≤ 'f' then some (c.toNat - 'a'.toNat + 10)
  else if 'A' ≤ c ∧ c ≤ 'F' then some (c.toNat - 'A'.toNat + 10)
  else none

/-- The unit of UTF-16 that four hexadecimal digits stand for. -/
def unit? (a b c d : Char) : Option Nat := do
  return 0x1000 * (← hexValue? a) + 0x100 * (← hexValue? b) + 0x10 * (← hexValue? c) +
    (← hexValue? d)

/-- The letters that stand behind a backslash, each with the character meant. -/
def letters : List (Char × Char) :=
  [('"', '"'), ('\\', '\\'), ('/', '/'), ('b', '\x08'), ('f', '\x0c'), ('n', '\n'), ('r', '\r'),
    ('t', '\t')]

/-- The character that a backslash and a letter stand for. -/
def short? (letter : Char) : Option Char := letters.lookup letter

/-- The numbers in the rest of a string, up to its closing quote, and what follows. -/
def readCodes : Text → Option (List Nat × Text)
  | [] => none
  | c :: rest =>
    if c = '"' then some ([], rest)
    else if c = '\\' then
      match rest with
      | [] => none
      | letter :: rest =>
        if letter = 'u' then
          match rest with
          | a :: b :: c :: d :: rest => do
            let n ← unit? a b c d
            let (codes, rest) ← readCodes rest
            return (n :: codes, rest)
          | _ => none
        else do
          let c ← short? letter
          let (codes, rest) ← readCodes rest
          return (c.toNat :: codes, rest)
    else if c.toNat < 0x20 then none
    else do
      let (codes, rest) ← readCodes rest
      return (c.toNat :: codes, rest)

def isFirstHalf (n : Nat) : Bool := 0xD800 ≤ n && n < 0xDC00

def isSecondHalf (n : Nat) : Bool := 0xDC00 ≤ n && n < 0xE000

/-- The text that numbers stand for. -/
def ofCodes : List Nat → Option Text
  | [] => some []
  | n :: rest =>
    if isFirstHalf n then
      match rest with
      | m :: rest =>
        if isSecondHalf m then
          (ofCodes rest).map (Char.ofNat (0x10000 + 0x400 * (n - 0xD800) + (m - 0xDC00)) :: ·)
        else none
      | [] => none
    else if isSecondHalf n then none
    else (ofCodes rest).map (Char.ofNat n :: ·)

/-- The rest of a string, up to its closing quote, and what follows. -/
def readString (text : Text) : Option (Text × Text) := do
  let (codes, rest) ← readCodes text
  return (← ofCodes codes, rest)

/-! ## Numbers and words -/

/-- The exponent of a number, if it has one. -/
def isExponent : Text → Bool
  | [] => true
  | mark :: rest =>
    let digits := if rest.head? = some '+' ∨ rest.head? = some '-' then rest.tail else rest
    (mark = 'e' || mark = 'E') && !digits.isEmpty && digits.all Char.isDigit

/-- The fraction of a number, if it has one, and its exponent. -/
def isFraction (text : Text) : Bool :=
  if text.head? = some '.' then
    text.tail.head?.any Char.isDigit && isExponent (text.tail.dropWhile Char.isDigit)
  else isExponent text

/-- A number: a whole part without leading zeros, a fraction and an exponent. -/
def isNumber (word : Text) : Bool :=
  let unsigned := if word.head? = some '-' then word.tail else word
  let whole := unsigned.takeWhile Char.isDigit
  !whole.isEmpty && (whole = ['0'] || whole.head? ≠ some '0') &&
    isFraction (unsigned.dropWhile Char.isDigit)

/-- Characters of numbers and words. -/
def isWordChar (c : Char) : Bool := c.isAlphanum || c = '+' || c = '-' || c = '.'

def ofWord? (word : Text) : Option Value :=
  if word = "null".toList then some .null
  else if word = "true".toList then some (.bool true)
  else if word = "false".toList then some (.bool false)
  else if isNumber word then some (.number word)
  else none

/-! ## Values -/

/-- Blanks between the parts of a JSON text. -/
def isSpace (c : Char) : Bool := c = ' ' || c = '\n' || c = '\r' || c = '\t'

/-- A text without the blanks in front. -/
def skip (text : Text) : Text := text.dropWhile isSpace

/-- What follows a mark, if the text has it behind the blanks in front. -/
def after? (mark : Char) (text : Text) : Option Text :=
  if (skip text).head? = some mark then some (skip text).tail else none

mutual

/-- The value at the head of a text, and what follows. -/
def readValue : Nat → Text → Option (Value × Text)
  | 0, _ => none
  | fuel + 1, text =>
    match after? '"' text, after? '[' text, after? '\x7b' text with
    | some rest, _, _ => (readString rest).map fun (text, rest) => (.string text, rest)
    | _, some rest, _ =>
      match after? ']' rest with
      | some rest => some (.array [], rest)
      | none => (readItems fuel rest).map fun (items, rest) => (.array items, rest)
    | _, _, some rest =>
      match after? '\x7d' rest with
      | some rest => some (.object [], rest)
      | none => (readMembers fuel rest).map fun (members, rest) => (.object members, rest)
    | none, none, none => do
      let v ← ofWord? ((skip text).takeWhile isWordChar)
      return (v, (skip text).dropWhile isWordChar)

/-- The items of an array up to its end, and what follows. -/
def readItems : Nat → Text → Option (List Value × Text)
  | 0, _ => none
  | fuel + 1, text => do
    let (item, rest) ← readValue fuel text
    match after? ',' rest with
    | some rest =>
      let (items, rest) ← readItems fuel rest
      return (item :: items, rest)
    | none => return ([item], ← after? ']' rest)

/-- The members of an object up to its end, and what follows. -/
def readMembers : Nat → Text → Option (List (Text × Value) × Text)
  | 0, _ => none
  | fuel + 1, text => do
    let (name, rest) ← readString (← after? '"' text)
    let (v, rest) ← readValue fuel (← after? ':' rest)
    match after? ',' rest with
    | some rest =>
      let (members, rest) ← readMembers fuel rest
      return ((name, v) :: members, rest)
    | none => return ([(name, v)], ← after? '\x7d' rest)

end

/-- A whole text as one value. No reading goes deeper than there are characters. -/
def read? (text : Text) : Option Value := do
  let (v, rest) ← readValue text.length text
  if (skip rest).isEmpty then some v else none

-- The reader knows arrays, numbers and surrogate pairs, which no record is written with.
example : read? "[1, \"\\ud83d\\ude00\"]".toList =
    some (.array [.number ['1'], .string ['😀']]) := by cbv

/-! ## Strings are read back -/

/-- Three ways to write a character: behind a backslash, by its number, and as it is. -/
theorem escapedChar_cases (c : Char) :
    (∃ letter, escapedChar c = ['\\', letter] ∧ short? letter = some c) ∨
      (escapedChar c = '\\' :: 'u' :: hexDigits 4 c.toNat ∧ c.toNat < 0x20) ∨
      (escapedChar c = [c] ∧ c ≠ '"' ∧ c ≠ '\\' ∧ 0x20 ≤ c.toNat) := by
  by_cases hshort : c = '"' ∨ c = '\\' ∨ c = '\n' ∨ c = '\r' ∨ c = '\t' ∨ c = '\x08' ∨
      c = '\x0c'
  · left
    rcases hshort with rfl | rfl | rfl | rfl | rfl | rfl | rfl <;> exact ⟨_, rfl, rfl⟩
  · obtain ⟨hquote, hslash, hn, hr, ht, hb, hf⟩ := by simpa only [not_or] using hshort
    right
    rw [escapedChar, if_neg hquote, if_neg hslash, if_neg hn, if_neg hr, if_neg ht, if_neg hb,
      if_neg hf]
    split
    next hcontrol => exact .inl ⟨rfl, hcontrol⟩
    next hcontrol => exact .inr ⟨rfl, hquote, hslash, Nat.le_of_not_lt hcontrol⟩

theorem hexValue?_smallHexDigit (n : Nat) : hexValue? (smallHexDigit n) = some (n % 16) := by
  have table : ∀ d : Fin 16, hexValue? (smallHexDigit d.val) = some d.val := by decide
  have h : smallHexDigit (n % 16) = smallHexDigit n := by simp [smallHexDigit]
  rw [← h]
  exact table ⟨n % 16, Nat.mod_lt _ (by decide)⟩

theorem hexDigits_four {n : Nat} (h : n < 0x10000) :
    ∃ a b c d, hexDigits 4 n = [a, b, c, d] ∧ unit? a b c d = some n := by
  refine ⟨_, _, _, _, rfl, ?_⟩
  simp only [unit?, hexValue?_smallHexDigit, bind, Option.bind, pure]
  congr 1
  omega

theorem readCodes_quote (rest : Text) : readCodes ('"' :: rest) = some ([], rest) := by
  rw [readCodes.eq_def]
  rfl

theorem readCodes_of_plain {c : Char} (hquote : c ≠ '"') (hslash : c ≠ '\\')
    (hcontrol : 0x20 ≤ c.toNat) (rest : Text) :
    readCodes (c :: rest) = (readCodes rest).map fun read => (c.toNat :: read.1, read.2) := by
  rw [readCodes.eq_def]
  dsimp only
  rw [if_neg hquote, if_neg hslash, if_neg (Nat.not_lt.2 hcontrol)]
  cases readCodes rest <;> rfl

theorem readCodes_of_short {letter c : Char} (h : short? letter = some c) (rest : Text) :
    readCodes ('\\' :: letter :: rest) =
      (readCodes rest).map fun read => (c.toNat :: read.1, read.2) := by
  have hletter : letter ≠ 'u' := by
    rintro rfl
    cases h
  rw [readCodes.eq_def]
  dsimp only
  rw [if_neg (by decide), if_pos rfl, if_neg hletter, h]
  cases readCodes rest <;> rfl

theorem readCodes_of_unit {a b c d : Char} {n : Nat} (h : unit? a b c d = some n) (rest : Text) :
    readCodes ('\\' :: 'u' :: a :: b :: c :: d :: rest) =
      (readCodes rest).map fun read => (n :: read.1, read.2) := by
  rw [readCodes.eq_def]
  dsimp only
  rw [if_neg (by decide), if_pos rfl, if_pos rfl, h]
  cases readCodes rest <;> rfl

theorem readCodes_escapedChar (c : Char) (rest : Text) :
    readCodes (escapedChar c ++ rest) =
      (readCodes rest).map fun read => (c.toNat :: read.1, read.2) := by
  rcases escapedChar_cases c with ⟨letter, hc, hshort⟩ | ⟨hc, hcontrol⟩ |
    ⟨hc, hquote, hslash, hcontrol⟩
  · rw [hc]
    exact readCodes_of_short hshort rest
  · obtain ⟨x, y, z, w, hdigits, hunit⟩ := hexDigits_four (Nat.lt_trans hcontrol (by decide))
    rw [hc, hdigits]
    exact readCodes_of_unit hunit rest
  · rw [hc]
    exact readCodes_of_plain hquote hslash hcontrol rest

theorem readCodes_flatMap (text rest : Text) :
    readCodes (text.flatMap escapedChar ++ '"' :: rest) = some (text.map Char.toNat, rest) := by
  induction text with
  | nil => exact readCodes_quote rest
  | cons c text ih =>
    rw [List.flatMap_cons, List.append_assoc, readCodes_escapedChar, ih]
    rfl

theorem not_half_toNat (c : Char) : isFirstHalf c.toNat = false ∧
    isSecondHalf c.toNat = false := by
  have hvalid : c.toNat < 0xD800 ∨ 0xDFFF < c.toNat ∧ c.toNat < 0x110000 := c.valid
  simp only [isFirstHalf, isSecondHalf, Bool.and_eq_false_iff, decide_eq_false_iff_not]
  omega

theorem ofCodes_map_toNat (text : Text) : ofCodes (text.map Char.toNat) = some text := by
  induction text with
  | nil => rfl
  | cons c text ih =>
    obtain ⟨hfirst, hsecond⟩ := not_half_toNat c
    rw [List.map_cons, ofCodes.eq_def]
    dsimp only
    rw [if_neg (by simp [hfirst]), if_neg (by simp [hsecond]), ih, Char.ofNat_toNat]
    rfl

/-- **A string is read back**, whatever characters it has. -/
theorem readString_flatMap (text rest : Text) :
    readString (text.flatMap escapedChar ++ '"' :: rest) = some (text, rest) := by
  rw [readString, readCodes_flatMap]
  simp only [bind, Option.bind, ofCodes_map_toNat, pure]

/-! ## No character breaks the line -/

/-- The text has no control character below the blank, the end of a line being one of these. -/
def IsUnbroken (text : Text) : Prop := ∀ c ∈ text, 0x20 ≤ c.toNat

theorem isUnbroken_nil : IsUnbroken [] := nofun

theorem IsUnbroken.cons {c : Char} {text : Text} (hc : 0x20 ≤ c.toNat) (h : IsUnbroken text) :
    IsUnbroken (c :: text) :=
  List.forall_mem_cons.2 ⟨hc, h⟩

theorem IsUnbroken.append {text more : Text} (h : IsUnbroken text) (hmore : IsUnbroken more) :
    IsUnbroken (text ++ more) :=
  List.forall_mem_append.2 ⟨h, hmore⟩

theorem isUnbroken_hexDigits (count n : Nat) : IsUnbroken (hexDigits count n) := by
  intro c hc
  by_contra hcontrol
  have hprintable := isPrintable_of_mem_hexDigits hc
  rw [not_isPrintable_of_control (.inl (Nat.lt_of_not_le hcontrol))] at hprintable
  cases hprintable

theorem le_toNat_of_short {letter c : Char} (h : short? letter = some c) :
    0x20 ≤ letter.toNat := by
  have table : ∀ entry ∈ letters, 0x20 ≤ entry.1.toNat := by decide
  obtain ⟨entry, hentry, hletter⟩ := List.lookup_isSome_iff.1 (Option.isSome_of_eq_some h)
  rw [eq_of_beq hletter]
  exact table entry hentry

theorem isUnbroken_escapedChar (c : Char) : IsUnbroken (escapedChar c) := by
  rcases escapedChar_cases c with ⟨letter, hc, hshort⟩ | ⟨hc, -⟩ | ⟨hc, -, -, hcontrol⟩
  · rw [hc]
    exact .cons (by decide) (.cons (le_toNat_of_short hshort) isUnbroken_nil)
  · rw [hc]
    exact .cons (by decide) (.cons (by decide) (isUnbroken_hexDigits 4 _))
  · rw [hc]
    exact .cons hcontrol isUnbroken_nil

theorem isUnbroken_string (text : Text) : IsUnbroken (string text) := by
  have htext : IsUnbroken (text.flatMap escapedChar) := by
    intro c hc
    obtain ⟨x, -, hx⟩ := List.mem_flatMap.1 hc
    exact isUnbroken_escapedChar x c hx
  exact (htext.cons (by decide)).append (isUnbroken_nil.cons (by decide))

/-! ## Values are read back -/

theorem after?_self {mark : Char} (h : isSpace mark = false) (rest : Text) :
    after? mark (mark :: rest) = some rest := by
  simp [after?, skip, h]

theorem after?_of_ne {c mark : Char} (hspace : isSpace c = false) (h : c ≠ mark) (rest : Text) :
    after? mark (c :: rest) = none := by
  simp [after?, skip, hspace, h]

theorem readValue_space (fuel : Nat) (text : Text) :
    readValue fuel (' ' :: text) = readValue fuel text := by
  cases fuel <;> rfl

theorem readMembers_space (fuel : Nat) (text : Text) :
    readMembers fuel (' ' :: text) = readMembers fuel text := by
  cases fuel <;> rfl

/-- The text is read as the value, whatever follows it. -/
def IsReadAs (text : Text) (v : Value) : Prop :=
  ∀ fuel rest, text.length ≤ fuel → readValue fuel (text ++ rest) = some (v, rest)

theorem string_append (text rest : Text) :
    string text ++ rest = '"' :: (text.flatMap escapedChar ++ '"' :: rest) := by
  simp [string]

theorem isReadAs_string (text : Text) : IsReadAs (string text) (.string text) := by
  intro fuel rest hfuel
  cases fuel with
  | zero => simp [string] at hfuel
  | succ fuel =>
    rw [string_append, readValue, after?_self rfl]
    dsimp only
    rw [readString_flatMap]
    rfl

/-! ## Objects are read back -/

def memberText (written : Text × Text) : Text := written.1 ++ [':', ' '] ++ written.2

/-- The written member is read as the name and the value and breaks no line. -/
structure IsMember (written : Text × Text) (member : Text × Value) : Prop where
  name : written.1 = string member.1
  value : IsReadAs written.2 member.2
  unbroken : IsUnbroken written.2

theorem isMember_string (name text : Text) :
    IsMember (string name, string text) (name, .string text) :=
  ⟨rfl, isReadAs_string text, isUnbroken_string text⟩

section

variable {written : Text × Text} {member : Text × Value} (h : IsMember written member)
include h

theorem memberText_append (rest : Text) :
    memberText written ++ rest =
      '"' :: (member.1.flatMap escapedChar ++ '"' :: ':' :: ' ' :: (written.2 ++ rest)) := by
  rw [memberText, h.name, List.append_assoc, List.append_assoc, string_append]
  rfl

/-- One member is read, and the mark behind it decides what comes next. -/
theorem readMembers_memberText {fuel : Nat} (hfuel : (memberText written).length ≤ fuel)
    (rest : Text) :
    readMembers (fuel + 1) (memberText written ++ rest) =
      match after? ',' rest with
      | some rest => (readMembers fuel rest).map fun read => (member :: read.1, read.2)
      | none => (after? '\x7d' rest).map fun rest => ([member], rest) := by
  have hvalue : readValue fuel (' ' :: (written.2 ++ rest)) = some (member.2, rest) := by
    rw [readValue_space]
    refine h.value fuel rest (Nat.le_trans ?_ hfuel)
    simp only [memberText, List.length_append]
    omega
  have hcolon : isSpace ':' = false := rfl
  rw [memberText_append h, readMembers, after?_self rfl]
  simp only [bind, Option.bind, readString_flatMap, after?_self hcolon, hvalue]
  cases after? ',' rest with
  | none => cases after? '\x7d' rest <;> rfl
  | some rest => cases hread : readMembers fuel rest <;> simp [hread, pure]

end

theorem commaSeparated_singleton (x : Text) : commaSeparated [x] = x := List.intercalate_singleton

theorem commaSeparated_cons_cons (x y : Text) (rest : List Text) :
    commaSeparated (x :: y :: rest) = x ++ ',' :: ' ' :: commaSeparated (y :: rest) := by
  rw [commaSeparated, List.intercalate_cons_cons, List.append_assoc]
  rfl

theorem isUnbroken_commaSeparated {xs : List Text} (h : ∀ x ∈ xs, IsUnbroken x) :
    IsUnbroken (commaSeparated xs) := by
  induction xs with
  | nil => exact nofun
  | cons x xs ih =>
    obtain ⟨hx, hxs⟩ := List.forall_mem_cons.1 h
    cases xs with
    | nil => rwa [commaSeparated_singleton]
    | cons y ys =>
      rw [commaSeparated_cons_cons]
      exact hx.append (((ih hxs).cons (by decide)).cons (by decide))

theorem readMembers_commaSeparated {written : List (Text × Text)} {members : List (Text × Value)}
    (h : List.Forall₂ IsMember written members) (hne : written ≠ []) (rest : Text)
    {fuel : Nat} (hfuel : (commaSeparated (written.map memberText)).length < fuel) :
    readMembers fuel (commaSeparated (written.map memberText) ++ '\x7d' :: rest) =
      some (members, rest) := by
  induction h generalizing fuel with
  | nil => exact absurd rfl hne
  | @cons w m ws ms hw hrest ih =>
    obtain ⟨fuel, rfl⟩ : ∃ less, fuel = less + 1 :=
      Nat.exists_eq_add_one.2 (Nat.zero_lt_of_lt hfuel)
    cases hrest with
    | nil =>
      rw [List.map_singleton, commaSeparated_singleton] at hfuel ⊢
      rw [readMembers_memberText hw (Nat.le_of_lt_succ hfuel), after?_of_ne rfl (by decide),
        after?_self rfl]
      rfl
    | @cons w' m' ws ms hw' hrest =>
      rw [List.map_cons, List.map_cons, commaSeparated_cons_cons] at hfuel ⊢
      rw [List.length_append, List.length_cons, List.length_cons] at hfuel
      have hmore : (commaSeparated ((w' :: ws).map memberText)).length < fuel := by
        rw [List.map_cons]
        omega
      rw [List.append_assoc, readMembers_memberText hw (by omega), List.cons_append,
        after?_self rfl]
      dsimp only
      rw [List.cons_append, readMembers_space, ← List.map_cons, ih (by simp) hmore]
      rfl

/-- An object with members does not end where it starts. -/
theorem after?_brace_commaSeparated {w : Text × Text} {m : Text × Value}
    (h : IsMember w m) (ws : List (Text × Text)) (rest : Text) :
    after? '\x7d' (commaSeparated ((w :: ws).map memberText) ++ rest) = none := by
  obtain ⟨tail, htail⟩ :
      ∃ tail, commaSeparated ((w :: ws).map memberText) = memberText w ++ tail := by
    cases ws with
    | nil => exact ⟨[], by rw [List.map_singleton, commaSeparated_singleton, List.append_nil]⟩
    | cons w' ws => exact ⟨_, commaSeparated_cons_cons _ _ _⟩
  rw [htail, List.append_assoc, memberText_append h]
  exact after?_of_ne rfl (by decide) _

theorem object_append (written : List (Text × Text)) (rest : Text) :
    object written ++ rest =
      '\x7b' :: (commaSeparated (written.map memberText) ++ '\x7d' :: rest) := by
  change ('\x7b' :: commaSeparated (written.map memberText) ++ ['\x7d']) ++ rest = _
  simp

/-- **An object is read back** as the members that it is written from, in their order. -/
theorem isReadAs_object {written : List (Text × Text)} {members : List (Text × Value)}
    (h : List.Forall₂ IsMember written members) :
    IsReadAs (object written) (.object members) := by
  intro fuel rest hfuel
  have hlength :
      (object written).length = (commaSeparated (written.map memberText)).length + 2 := by
    simpa using congrArg List.length (object_append written [])
  obtain ⟨fuel, rfl⟩ : ∃ less, fuel = less + 1 := ⟨fuel - 1, by omega⟩
  rw [object_append, readValue, after?_of_ne rfl (by decide), after?_of_ne rfl (by decide),
    after?_self rfl]
  dsimp only
  cases h with
  | nil => rfl
  | cons hmember hrest =>
    rw [after?_brace_commaSeparated hmember,
      readMembers_commaSeparated (.cons hmember hrest) (by simp) rest (by omega)]
    rfl

theorem isUnbroken_object {written : List (Text × Text)} {members : List (Text × Value)}
    (h : List.Forall₂ IsMember written members) : IsUnbroken (object written) := by
  have hmembers : ∀ x ∈ written.map memberText, IsUnbroken x := by
    intro x hx
    obtain ⟨w, hw, rfl⟩ := List.mem_map.1 hx
    obtain ⟨member, -, hmember⟩ := exists_mem_of_mem_left h hw
    have hname : IsUnbroken w.1 := hmember.name ▸ isUnbroken_string member.1
    have hmark : IsUnbroken [':', ' '] := (isUnbroken_nil.cons (by decide)).cons (by decide)
    exact (hname.append hmark).append hmember.unbroken
  have hclose : IsUnbroken ['\x7d'] := isUnbroken_nil.cons (by decide)
  rw [← List.append_nil (object written), object_append]
  exact ((isUnbroken_commaSeparated hmembers).append hclose).cons (by decide)

theorem isMember_object (name : Text) {written : List (Text × Text)}
    {members : List (Text × Value)} (h : List.Forall₂ IsMember written members) :
    IsMember (string name, object written) (name, .object members) :=
  ⟨rfl, isReadAs_object h, isUnbroken_object h⟩

theorem read?_of_isReadAs {text : Text} {v : Value} (h : IsReadAs text v) :
    read? text = some v := by
  have hread := h text.length [] (Nat.le_refl _)
  rw [List.append_nil] at hread
  rw [read?, hread]
  rfl

end LinkTemplate.Log.Json
