import LinkTemplate.Decimal.Integer

/-!
# Levels of log records

A level is a number; the larger, the more severe. Five levels and the absence of a level have
names, and two of the names have an older synonym.
-/

namespace LinkTemplate.Log

open Decimal

/-- The severity of a record. -/
abbrev Level := Int

namespace Level

def debug : Level := 10
def info : Level := 20
def warning : Level := 30
def error : Level := 40
def critical : Level := 50

/-- The names of levels, the preferred name of a level first. -/
def names : List (Text × Level) :=
  [("CRITICAL".toList, 50), ("FATAL".toList, 50), ("ERROR".toList, 40), ("WARNING".toList, 30),
    ("WARN".toList, 30), ("INFO".toList, 20), ("DEBUG".toList, 10), ("NOTSET".toList, 0)]

/-- The level with a name. -/
def ofName? (name : Text) : Option Level := (names.find? fun (n, _) => n = name).map Prod.snd

/-- The name of a level; one without is shown by its number. -/
def name (level : Level) : Text :=
  match names.find? fun (_, l) => l = level with
  | some (n, _) => n
  | none => "Level ".toList ++ intText level

end Level

end LinkTemplate.Log
