import LinkTemplate.Text.Alphabet

/-!
# Values of template variables

A variable is undefined or has one of three shapes of value: a string, a list of strings, or an
ordered list of pairs of strings, in which a key may occur more than once. An empty string is a
value like any other. An empty list and an empty association are *absent*: an expression passes
over them as if the variable were undefined.
-/

namespace LinkTemplate

/-- The value of a defined variable. -/
inductive Value where
  | string (text : Text)
  | list (items : List Text)
  | assoc (pairs : List (Text × Text))
  deriving DecidableEq, Inhabited

namespace Value

/-- Holds nothing: no character, no item, no pair. -/
def isEmpty : Value → Bool
  | string text => text.isEmpty
  | list items => items.isEmpty
  | assoc pairs => pairs.isEmpty

/-- An empty list or association. -/
def isAbsent : Value → Bool
  | string _ => false
  | list items => items.isEmpty
  | assoc pairs => pairs.isEmpty

/-- The keys of an association, in order. -/
def keys : Value → List Text
  | assoc pairs => pairs.map Prod.fst
  | _ => []

end Value

end LinkTemplate
