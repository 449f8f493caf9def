import LinkTemplate.Template.Item
import LinkTemplate.Percent.Encoding

/-!
# The rules of the operators

Expansion treats all operators alike up to five parameters: what is written before the first
defined variable and before each later one, whether values carry the name of their variable,
what stands behind the name of an empty value, and which characters of a value are kept.
-/

namespace LinkTemplate

/-- Which characters of a value are kept. -/
inductive Policy where
  /-- Unreserved characters only; every `%` is data. -/
  | unreserved
  /-- All URI characters, and escapes that are already there. -/
  | uri
  deriving DecidableEq, Inhabited

namespace Policy

/-- The characters that stand for themselves. -/
def allows (policy : Policy) (c : Char) : Bool :=
  match policy with
  | unreserved => isUnreserved c
  | uri => isUriChar c

/-- A value under the policy. -/
def escape (policy : Policy) (text : Text) : Text :=
  match policy with
  | unreserved => Percent.quote isUnreserved text
  | uri => Percent.encode isUriChar text

end Policy

/-- The parameters of one operator. -/
structure Rules where
  /-- Before the first value. -/
  first : Text
  /-- Before each later value. -/
  sep : Text
  /-- Values carry the names of their variables. -/
  named : Bool
  /-- Behind the name of an empty value. -/
  ifEmpty : Text
  policy : Policy
  deriving DecidableEq, Inhabited

/-- The rules of an operator. -/
def Rules.of : Option Operator → Rules
  | none => ⟨[], [','], false, [], .unreserved⟩
  | some .reserved => ⟨[], [','], false, [], .uri⟩
  | some .fragment => ⟨['#'], [','], false, [], .uri⟩
  | some .label => ⟨['.'], ['.'], false, [], .unreserved⟩
  | some .pathSegment => ⟨['/'], ['/'], false, [], .unreserved⟩
  | some .pathParameter => ⟨[';'], [';'], true, [], .unreserved⟩
  | some .formQuery => ⟨['?'], ['&'], true, ['='], .unreserved⟩
  | some .formContinuation => ⟨['&'], ['&'], true, ['='], .unreserved⟩

end LinkTemplate
