import LinkTemplate.Binding.Assignment

/-!
# Names in the surroundings

The names under which the program meets its surroundings: its loggers, all below one base
logger, and its variables in the environment, all with one beginning.
-/

namespace LinkTemplate

/-- Variables of the environment with their texts. -/
abbrev Environment := Assignment Text

namespace Naming

/-- The name of the base logger. -/
def baseLogger : Text := "urikit".toList

/-- The version that records carry. -/
def version : Text := "0.3.1".toList

/-- The full name of a logger. Names at or below the base logger are full already. -/
def logger (name : Text) : Text :=
  if name.isEmpty || name = baseLogger then baseLogger
  else if (baseLogger ++ ['.']).isPrefixOf name then name
  else baseLogger ++ '.' :: name

/-- The loggers of the parts of the library. -/
def parsing : Text := logger "parsing".toList
def expansion : Text := logger "expansion".toList
def templates : Text := logger "templates".toList
def config : Text := logger "config".toList

/-- A variable of the environment. -/
def environmentKey (what : Text) : Text := "URIKIT_".toList ++ what

def encodeLiteralsKey : Text := environmentKey "ENCODE_LITERALS".toList
def parseCacheSizeKey : Text := environmentKey "PARSE_CACHE_SIZE".toList
def logDegradedKey : Text := environmentKey "LOG_DEGRADED".toList
def logLevelKey : Text := environmentKey "LOG_LEVEL".toList
def logJsonKey : Text := environmentKey "LOG_JSON".toList
def traceKey : Text := environmentKey "TRACE".toList
def versionKey : Text := environmentKey "VERSION".toList

/-- The version that records carry: that of the program if it is installed, and what the
environment says if it is not. -/
def reportedVersion (installed : Bool) (env : Environment) : Text :=
  if installed then version else (Assignment.get? versionKey env).getD "unknown".toList

end Naming

end LinkTemplate
