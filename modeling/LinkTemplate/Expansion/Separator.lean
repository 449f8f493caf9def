import LinkTemplate.Text.Alphabet

/-!
# Separators

A separator is written before every piece of a sequence: one text before the first piece and
another before each later one. It is a small state, the text that comes next and the text that
comes from then on, so that it can be passed over pieces that turn out to be missing.
-/

namespace LinkTemplate

/-- What is written before the pieces of a sequence. -/
structure Separator where
  /-- Before the next piece. -/
  next : Text
  /-- Before each piece after it. -/
  later : Text
  deriving DecidableEq, Inhabited

namespace Separator

/-- The separator behind the next piece. -/
def advance (s : Separator) : Separator := { s with next := s.later }

/-- Pieces with the separator before each. -/
def join (s : Separator) : List Text → Text
  | [] => []
  | piece :: rest => s.next ++ piece ++ s.advance.join rest

end Separator

end LinkTemplate
