import LinkTemplate.Log.Base
import LinkTemplate.Text.Blank
import LinkTemplate.Text.Case

/-!
# Factories of loggers

A factory knows how the base logger is to be set up and does it when it is first asked for a
logger. Until then it has no effect.
-/

namespace LinkTemplate.Log

open Text Decimal

/-- A set-up that waits for the first request. -/
structure Factory where
  wanted : Setup := {}
  /-- The request has come. -/
  configured : Bool := false
  deriving DecidableEq, Inhabited

namespace Factory

/-- A text as a level. Digits are a number; any other text is a name in any case, and `info` if
no level has it. Not everything that passes for a digit belongs to a number. -/
def readLevel (raw : Text) : Except Failure Level :=
  let word := trim raw
  if word.isEmpty then .ok Level.info
  else if word.all isDigitLike then
    match readNat? word with
    | some n => .ok n
    | none => .error .notANumber
  else .ok ((Level.ofName? (capitals word)).getD Level.info)

/-- The factory that an environment asks for. -/
def ofEnvironment (env : Environment) (stream : Text) : Except Failure Factory := do
  let level ← readLevel ((Assignment.get? Naming.logLevelKey env).getD [])
  let json := Assignment.get? Naming.logJsonKey env = some ['1']
  return { wanted := { json, level, stream } }

/-- Ask for a logger: its full name, and what becomes of the factory and the base logger. -/
def getLogger (f : Factory) (b : Base) (name : Text) : Text × Factory × Base :=
  if f.configured then (Naming.logger name, f, b)
  else (Naming.logger name, { f with configured := true }, b.setup f.wanted)

end Factory

end LinkTemplate.Log
