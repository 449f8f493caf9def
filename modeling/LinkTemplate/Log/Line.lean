import LinkTemplate.Log.Record
import LinkTemplate.Log.Timestamp
import LinkTemplate.Log.Json

/-!
# Lines of a log

A record is written as one line, in one of two formats: the level and the message, or a JSON
object with the time, the level, the logger, the message, the version of the program and, if the
record carries entries as its context, the context.
-/

namespace LinkTemplate.Log

/-- How records are written. -/
inductive Format where
  | plain
  /-- JSON, naming this version of the program. -/
  | json (version : Text)
  deriving DecidableEq, Inhabited

/-- The entries of a context that are worth writing: a mapping that is not empty and may still
change. -/
def contextEntries : Datum → List (Datum × Datum)
  | .map .readOnly _ => []
  | .map _ entries => entries
  | _ => []

/-- The members of a record as a JSON object. -/
def Record.members (r : Record) (version stamp message : Text) (context : List (Text × Text)) :
    List (Text × Text) :=
  [(Json.string "ts".toList, Json.string stamp),
    (Json.string "level".toList, Json.string (Level.name r.level)),
    (Json.string "module".toList, Json.string r.logger),
    (Json.string "msg".toList, Json.string message),
    (Json.string "version".toList, Json.string version)] ++
    if context.isEmpty then [] else [(Json.string "ctx".toList, Json.object context)]

/-- A record made at a time, in a format. Of two reasons not to write it, the time comes before the
message and the message before the context. -/
def Record.line (r : Record) (format : Format) (micros : Int) : Except Failure Text :=
  match format with
  | .plain => do return Level.name r.level ++ ':' :: ' ' :: (← r.filled)
  | .json version => do
    let stamp ← Timestamp.ofMicros micros
    let message ← r.filled
    let context ← Json.ofEntries (contextEntries r.context)
    return Json.object (r.members version stamp message context)

end LinkTemplate.Log
