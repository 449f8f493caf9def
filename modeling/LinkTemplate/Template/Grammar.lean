import LinkTemplate.Template.Item
import LinkTemplate.Text.Cut
import LinkTemplate.Text.Quoted

/-!
# Reading an expression

The body of an expression, the text between its braces, is read by this grammar:

    expression  = [ operator ] varspec *( "," varspec )
    varspec     = varname [ "*" / ":" [ "+" ] max-length ]
    varname     = 1*( ALPHA / DIGIT / "_" / "." / pct-encoded )
    max-length  = %x31-39 0*3DIGIT

The first character of a body is read as an operator whenever it can be, so a leading `.` is
never part of a name.

A body that does not match has a `Fault`, the first one met: variables are read in order, and
the name of a variable before its limit. One kind of limit is not a fault of the grammar: a
number beyond the digit limit is refused before its size is looked at, and this refusal is no
statement about the template.
-/

namespace LinkTemplate

open Text Decimal

/-- What is wrong with the body of an expression. -/
inductive Fault where
  | emptyName
  /-- The `%` at this position of a name starts no triplet. -/
  | badTriplet (position : Nat)
  /-- A character that no name may hold. -/
  | badNameChar (c : Char)
  /-- A limit is empty or starts with a zero. -/
  | limitStart
  /-- A limit, less a leading plus, that is no number. -/
  | limitNotNumber (text : Text)
  /-- A limit that is too large. -/
  | limitTooLarge (size : Nat)
  | emptyVarspec
  /-- A variable with both modifiers. -/
  | limitAndExplode
  /-- Something follows the explode marker. -/
  | explodeNotLast
  | emptyExpression
  deriving DecidableEq, Inhabited

/-- The wording of a fault. -/
def Fault.message : Fault → Text
  | emptyName => "empty varname".toList
  | badTriplet position => "bad pct-encoded octet at ".toList ++ natText position
  | badNameChar c => "invalid varname character ".toList ++ quoted [c]
  | limitStart => "prefix must start with 1-9".toList
  | limitNotNumber text => "prefix is not a number: ".toList ++ quoted text
  | limitTooLarge size => "prefix ".toList ++ natText size ++ " out of range".toList
  | emptyVarspec => "empty varspec".toList
  | limitAndExplode => "prefix and explode are mutually exclusive".toList
  | explodeNotLast => "explode marker must be last".toList
  | emptyExpression => "empty expression".toList

/-- Why a body is not read as an expression. -/
inductive Rejection where
  | malformed (fault : Fault)
  /-- A limit has more digits than can be read. -/
  | tooManyDigits
  deriving DecidableEq, Inhabited

namespace Grammar

/-! ## Names -/

/-- Characters that stand in a name outside triplets. -/
def isNameChar (c : Char) : Bool := isAlpha c || isDigit c || oneOf ['_', '.'] c

/-- The first fault of a name, of which `position` characters have been read. -/
def nameFault? (position : Nat) : Text → Option Fault
  | [] => none
  | '%' :: a :: b :: rest =>
    if isHexDigit a && isHexDigit b then nameFault? (position + 3) rest
    else some (.badTriplet position)
  | c :: rest =>
    if c = '%' then some (.badTriplet position)
    else if isNameChar c then nameFault? (position + 1) rest
    else some (.badNameChar c)

/-- A whole text as a name. -/
def readName (text : Text) : Except Rejection Text :=
  if text.isEmpty then .error (.malformed .emptyName)
  else match nameFault? 0 text with
    | none => .ok text
    | some fault => .error (.malformed fault)

/-! ## Limits -/

/-- Limits are below this bound. -/
def limitBound : Nat := 10000

/-- A limit without its plus. -/
def dropPlus : Text → Text
  | '+' :: rest => rest
  | text => text

/-- The number that ASCII digits stand for. -/
def digitsValue (text : Text) : Nat := Nat.ofDigitChars 10 text 0

/-- A whole text as a limit. -/
def readLimit (text : Text) : Except Rejection Nat :=
  let digits := dropPlus text
  if digits.isEmpty || digits.head? = some '0' then .error (.malformed .limitStart)
  else if !digits.all isDigit then .error (.malformed (.limitNotNumber digits))
  else if maxDigits < digits.length then .error .tooManyDigits
  else if limitBound ≤ digitsValue digits then
    .error (.malformed (.limitTooLarge (digitsValue digits)))
  else .ok (digitsValue digits)

/-! ## Variables and expressions -/

/-- A whole text as a variable with its modifier. -/
def readVarspec (text : Text) : Except Rejection Varspec :=
  if text.isEmpty then .error (.malformed .emptyVarspec)
  else match cut '*' text, cut ':' text with
    | none, none => do
      let name ← readName text
      return ⟨name, none⟩
    | some _, some _ => .error (.malformed .limitAndExplode)
    | none, some (before, after) => do
      let name ← readName before
      let size ← readLimit after
      return ⟨name, some (.limit size)⟩
    | some (before, after), none =>
      if after.isEmpty then do
        let name ← readName before
        return ⟨name, some .explode⟩
      else .error (.malformed .explodeNotLast)

/-- The operator at the head of a body, and the rest. -/
def splitOperator : Text → Option Operator × Text
  | [] => (none, [])
  | c :: rest =>
    match Operator.ofSigil? c with
    | some op => (some op, rest)
    | none => (none, c :: rest)

/-- A whole body as an expression. -/
def readExpression (body : Text) : Except Rejection Expression :=
  if body.isEmpty then .error (.malformed .emptyExpression)
  else do
    let (operator, rest) := splitOperator body
    let vars ← (fields ',' rest).mapM readVarspec
    return ⟨operator, vars⟩

end Grammar

end LinkTemplate
