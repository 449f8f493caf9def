import LinkTemplate.Datum.Text
import LinkTemplate.Decimal.Rounded
import LinkTemplate.Log.Placeholder

/-!
# Messages with arguments

The placeholders of a message are filled with data in order. The letter of a placeholder says
how a datum is shown:

* `s` in its plain form, `r` in its written form, `a` in its written form without characters
  beyond ASCII;
* `d`, `i`, `u` as a whole number, `o` and `x` as one in base eight and sixteen;
* `f`, `e`, `g` as a number of a set precision, six if none is given, in the positional,
  scientific and general style;
* `c` as one character, given by itself or by its number.

The capitals of `x`, `f`, `e` and `g` write letters in capitals.

If the only argument is a mapping with entries, placeholders may name an entry, and entries may
be left over. Otherwise every argument must be used. A message without arguments is left alone,
percent signs included.
-/

namespace LinkTemplate.Log.Message

open Decimal

/-! ## What data supplies -/

/-- A datum as a whole number; what is behind the point is cut off. -/
def toInt : Datum → Except Failure Int
  | .int n => .ok n
  | .bool b => .ok (if b then 1 else 0)
  | .float (.finite negative m q) => .ok (wholePart negative m 2 q)
  | .decimal (.finite negative c k) => .ok (wholePart negative c 10 k)
  | .float (.infinity _) | .decimal (.infinity _) => .error .outOfRange
  | .float .nan | .decimal (.nan ..) => .error .notANumber
  | _ => .error .argumentMismatch
where
  /-- The whole part of `coefficient · base ^ exponent`. -/
  wholePart (negative : Bool) (coefficient base : Nat) (exponent : Int) : Int :=
    let size : Nat :=
      if exponent < 0 then coefficient / base.pow exponent.natAbs
      else coefficient * base.pow exponent.natAbs
    if negative then -(size : Int) else size

/-- A datum that is a whole number. -/
def exactInt : Datum → Except Failure Int
  | .int n => .ok n
  | .bool b => .ok (if b then 1 else 0)
  | _ => .error .argumentMismatch

/-- A datum as a double. A whole number beyond all doubles has none; a numeral becomes infinite. -/
def toDouble : Datum → Except Failure Binary64
  | .float x => .ok x
  | .decimal (.nan _ true _) => .error .notANumber
  | .decimal x => .ok (.ofNumeral x)
  | d => do
    match Binary64.ofInt (← exactInt d) with
    | .infinity _ => .error .outOfRange
    | x => return x

/-- A datum as a character. -/
def toChar : Datum → Except Failure Char
  | .text [c] => .ok c
  | d => do
    let n ← exactInt d
    if 0 ≤ n ∧ n < 0x110000 then return Char.ofNat n.toNat else .error .outOfRange

/-! ## Layout -/

/-- How a placeholder lays out what fills it. -/
structure Layout where
  flags : Flags
  width : Nat
  precision : Option Nat

namespace Layout

/-- A text filled up to the width with blanks. -/
def fillBlanks (l : Layout) (text : Text) : Text :=
  let blanks := List.replicate (l.width - text.length) ' '
  if l.flags.left then text ++ blanks else blanks ++ text

/-- A text, cut at the precision. -/
def text (l : Layout) (text : Text) : Text :=
  l.fillBlanks (match l.precision with
    | none => text
    | some n => text.take n)

/-- A number with its sign and the mark of its base, filled up to the width with zeros if these
are asked for and would not stand behind it. -/
def number (l : Layout) (negative : Bool) (mark body : Text) : Text :=
  let sign :=
    if negative then ['-'] else if l.flags.plus then ['+'] else if l.flags.blank then [' '] else []
  let front := sign ++ mark
  let zeros :=
    if l.flags.zero && !l.flags.left then
      List.replicate (l.width - (front ++ body).length) '0'
    else []
  l.fillBlanks (front ++ zeros ++ body)

/-- A whole number has fewer digits than this. -/
def digitBound : Nat := Nat.pow 2 31 - 3

/-- The least count of digits of a whole number. -/
def digitCount (l : Layout) : Except Failure Nat :=
  let count := l.precision.getD 0
  if count < digitBound then .ok count else .error .outOfRange

/-- A whole number from its digits, of which there are `count` at least. -/
def whole (l : Layout) (count : Nat) (negative : Bool) (mark digits : Text) : Text :=
  let zeros := List.replicate (count - digits.length) '0'
  l.number negative (if l.flags.full then mark else []) (zeros ++ digits)

end Layout

/-- The letters of a text in capitals, if wanted. -/
def cased (capital : Bool) (text : Text) : Text := if capital then text.map Char.toUpper else text

/-- A number in decimal. -/
def inDecimal (l : Layout) (d : Datum) : Except Failure Text := do
  let n ← toInt d
  let count ← l.digitCount
  if withinDigits n then return l.whole count (n < 0) [] (natText n.natAbs)
  else .error .tooManyDigits

/-- A number in another base. -/
def inBase (l : Layout) (base : Nat) (mark : Text) (capital : Bool) (d : Datum) :
    Except Failure Text := do
  let n ← exactInt d
  let count ← l.digitCount
  return l.whole count (n < 0) (cased capital mark) (cased capital (Nat.toDigits base n.natAbs))

/-- A number of a set precision. -/
def inStyle (l : Layout) (style : Style) (capital : Bool) (d : Datum) : Except Failure Text := do
  let x ← toDouble d
  let body := roundedText style l.flags.full (l.precision.getD 6) x
  return l.number x.isNegative [] (cased capital body)

/-- A text in which characters beyond ASCII are shown by their numbers. -/
def inAscii (text : Text) : Text :=
  text.flatMap fun c => if c.toNat < 0x80 then [c] else Text.numbered c

/-- A datum as a letter shows it. -/
def convert (l : Layout) (letter : Char) (d : Datum) : Except Failure Text :=
  match letter with
  | 's' => do return l.text (← d.plain)
  | 'r' => do return l.text (← d.written)
  | 'a' => do return l.text (inAscii (← d.written))
  | 'd' | 'i' | 'u' => inDecimal l d
  | 'x' => inBase l 16 ['0', 'x'] false d
  | 'X' => inBase l 16 ['0', 'x'] true d
  | 'o' => inBase l 8 ['0', 'o'] false d
  | 'f' => inStyle l .positional false d
  | 'F' => inStyle l .positional true d
  | 'e' => inStyle l .scientific false d
  | 'E' => inStyle l .scientific true d
  | 'g' => inStyle l .general false d
  | 'G' => inStyle l .general true d
  | 'c' => do return l.fillBlanks [← toChar d]
  | _ => .error .badPlaceholder

/-! ## Filling -/

/-- What placeholders are filled from. -/
structure Supply where
  /-- Arguments that are not used yet. -/
  waiting : List Datum
  /-- The entries that placeholders may name. -/
  entries : Option (List (Datum × Datum))

namespace Supply

/-- The next argument. -/
def next (s : Supply) : Except Failure (Datum × Supply) :=
  match s.waiting with
  | d :: rest => .ok (d, { s with waiting := rest })
  | [] => .error .argumentMismatch

/-- The supply for one placeholder. A named entry is all there is from then on. -/
def choose (s : Supply) : Source → Except Failure Supply
  | .arguments => .ok s
  | source =>
    match s.entries, source with
    | some entries, .entry name =>
      match entries.find? fun (key, _) => key.isText name with
      | some (_, d) => .ok { s with waiting := [d] }
      | none => .error .noEntry
    | some _, _ => .error .badPlaceholder
    | none, _ => .error .argumentMismatch

/-- An extent as a number, with its bound. A bound that is exceeded in the message is a fault of
the message, one that an argument exceeds a fault of the argument. -/
def measure (s : Supply) (bound : Nat) : Extent → Except Failure (Option Int × Supply)
  | .absent => .ok (none, s)
  | .digits n => if n < bound then .ok (some n, s) else .error .badPlaceholder
  | .argument => do
    let (d, s) ← s.next
    let n ← exactInt d
    if -(bound : Int) ≤ n ∧ n < bound then return (some n, s) else .error .outOfRange

end Supply

/-- Widths are below this bound. -/
def widthBound : Nat := Nat.pow 2 63

/-- Precisions are below this bound. -/
def precisionBound : Nat := Nat.pow 2 31

/-- Fill a placeholder. A negative width puts the blanks behind; a negative precision is zero. -/
def fillOne (s : Supply) (p : Placeholder) : Except Failure (Text × Supply) := do
  let s ← s.choose p.source
  let (width, s) ← s.measure widthBound p.width
  let (precision, s) ← s.measure precisionBound p.precision
  match p.letter with
  | none => .error .badPlaceholder
  | some letter =>
    let (d, s) ← s.next
    let width := width.getD 0
    let l : Layout :=
      { flags := { p.flags with left := p.flags.left || width < 0 }
        width := width.natAbs
        precision := precision.map Int.toNat }
    return (← convert l letter d, s)

/-- Fill the placeholders among pieces, one after the other. -/
def fillPieces (s : Supply) : List Piece → Except Failure (Text × Supply)
  | [] => .ok ([], s)
  | .char c :: rest => do
    let (text, s) ← fillPieces s rest
    return (c :: text, s)
  | .placeholder p :: rest => do
    let (filled, s) ← fillOne s p
    let (text, s) ← fillPieces s rest
    return (filled ++ text, s)

/-- A message with its placeholders filled by arguments. -/
def fill (message : Text) (args : List Datum) : Except Failure Text :=
  match args with
  | [] => .ok message
  | [.map kind (entry :: more)] => do
    let s : Supply := ⟨[.map kind (entry :: more)], some (entry :: more)⟩
    let (text, _) ← fillPieces s (pieces message)
    return text
  | args => do
    let (text, s) ← fillPieces ⟨args, none⟩ (pieces message)
    if s.waiting.isEmpty then return text else .error .argumentMismatch

end LinkTemplate.Log.Message
