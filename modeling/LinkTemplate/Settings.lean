/-!
# Settings

The settings that reading, expansion and the engine share.
-/

namespace LinkTemplate

/-- The settings of a template or an engine. -/
structure Settings where
  /-- Escape the literals of a template, too. -/
  encodeLiterals : Bool := false
  /-- How many read templates an engine keeps: no limit if absent, none if negative. -/
  parseCacheSize : Option Int := some 128
  /-- Write a note of every expression that is kept as a literal. -/
  logDegraded : Bool := true
  deriving DecidableEq, Inhabited

end LinkTemplate
