import LinkTemplate.Decimal.Integer

/-!
# The items of a template

A template is a sequence of items. A literal stands for its text. An expression names variables
and says how their values enter the text: an operator for all of them, and for each variable an
optional modifier, which limits a string to its first characters or spreads a composite value.

Every item has a text form, the one that a template is written in. A limit is written as a
number, so an item can be written only if its limits are within the digit limit.
-/

namespace LinkTemplate

open Decimal

/-! ## Operators -/

/-- The operators, one for each kind of place that an expression fills in a URI. -/
inductive Operator where
  | reserved
  | fragment
  | label
  | pathSegment
  | pathParameter
  | formQuery
  | formContinuation
  deriving DecidableEq, Inhabited

namespace Operator

/-- The character that stands for the operator. -/
def sigil : Operator → Char
  | reserved => '+'
  | fragment => '#'
  | label => '.'
  | pathSegment => '/'
  | pathParameter => ';'
  | formQuery => '?'
  | formContinuation => '&'

/-- The operator that a character stands for. -/
def ofSigil? : Char → Option Operator
  | '+' => some reserved
  | '#' => some fragment
  | '.' => some label
  | '/' => some pathSegment
  | ';' => some pathParameter
  | '?' => some formQuery
  | '&' => some formContinuation
  | _ => none

theorem ofSigil?_sigil (op : Operator) : ofSigil? op.sigil = some op := by
  cases op <;> rfl

theorem ofSigil?_eq_some {c : Char} {op : Operator} (h : ofSigil? c = some op) :
    c = op.sigil := by
  unfold ofSigil? at h
  split at h <;> simp_all [sigil] <;> subst h <;> rfl

/-- The sigil in front of the variables; without operator there is none. -/
def text : Option Operator → Text
  | none => []
  | some op => [op.sigil]

end Operator

/-! ## Variables of an expression -/

/-- What is done to the value of one variable. -/
inductive Modifier where
  /-- Keep the first `size` characters of a string; with a negative size, drop that many from
  its end. A template that is read has sizes from 1 to 9999 only. -/
  | limit (size : Int)
  /-- Treat each element of a composite value as a value of its own. -/
  | explode
  deriving DecidableEq, Inhabited

/-- A variable in an expression. -/
structure Varspec where
  name : Text
  modifier : Option Modifier
  deriving DecidableEq, Inhabited

/-- An expression. A template that is read has at least one variable in each. -/
structure Expression where
  operator : Option Operator
  vars : List Varspec
  deriving DecidableEq, Inhabited

/-- An item of a template. -/
inductive Item where
  | literal (text : Text)
  | expression (e : Expression)
  deriving DecidableEq, Inhabited

/-- A modifier behind the name of its variable. -/
def Modifier.toText : Modifier → Text
  | limit size => ':' :: intText size
  | explode => ['*']

namespace Varspec

/-- The value is spread. -/
def isExploded (v : Varspec) : Bool := v.modifier = some .explode

/-- The limit on a string value, if there is one. -/
def limit? (v : Varspec) : Option Int :=
  match v.modifier with
  | some (.limit size) => some size
  | _ => none

/-- The name and the modifier. -/
def toText (v : Varspec) : Text :=
  match v.modifier with
  | none => v.name
  | some m => v.name ++ m.toText

/-- The limit, if there is one, can be written. -/
def isWritable (v : Varspec) : Bool := v.limit?.all withinDigits

end Varspec

namespace Expression

/-- The names of the variables, in order. -/
def names (e : Expression) : List Text := e.vars.map Varspec.name

/-- The text between the braces. -/
def body (e : Expression) : Text :=
  Operator.text e.operator ++ List.intercalate [','] (e.vars.map Varspec.toText)

/-- The expression with its braces. -/
def toText (e : Expression) : Text := '\x7b' :: e.body ++ ['\x7d']

end Expression

namespace Item

/-- The item as a template has it. -/
def toText : Item → Text
  | literal text => text
  | expression e => e.toText

/-- Every limit in the item can be written. -/
def isWritable : Item → Bool
  | literal _ => true
  | expression e => e.vars.all Varspec.isWritable

end Item

end LinkTemplate
