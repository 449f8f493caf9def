import LinkTemplate.Log.Line

/-!
# The base logger

All loggers of the program hand their records to one base logger, which has a level and writes
to the handlers attached to it. As long as it is not set up it has neither: records of warnings
and worse then go to the standard error stream, as bare messages.

Setting it up attaches one handler and keeps the records from any logger above. Setting it up
again changes the level only.
-/

namespace LinkTemplate.Log

/-- A stream that lines are written to in a format. -/
structure Handler where
  stream : Text
  format : Format
  deriving DecidableEq, Inhabited

/-- The state of the base logger. -/
structure Base where
  /-- The least level of records that are written; zero leaves it to the logger above. -/
  level : Level := 0
  handlers : List Handler := []
  /-- Records also go to the logger above. -/
  propagate : Bool := true
  deriving DecidableEq, Inhabited

/-- What a handler is to be like. -/
structure Setup where
  json : Bool := false
  level : Level := Level.info
  stream : Text := "stderr".toList
  deriving DecidableEq, Inhabited

/-- The format of a set-up. -/
def Setup.format (s : Setup) : Format := if s.json then .json Naming.version else .plain

/-- A line for a stream. -/
structure Written where
  stream : Text
  text : Text
  deriving DecidableEq, Inhabited

/-- A record without a handler: its bare message. -/
def Record.bare (r : Record) : Option Written :=
  match r.filled with
  | .ok message => some ⟨"stderr".toList, message ++ ['\n']⟩
  | .error _ => none

namespace Base

/-- Set the level and, the first time, attach a handler. -/
def setup (b : Base) (s : Setup) : Base :=
  if b.handlers.isEmpty then
    { level := s.level, handlers := [⟨s.stream, s.format⟩], propagate := false }
  else { b with level := s.level }

/-- The level from which on records are written: that of the logger above is `warning`. -/
def effectiveLevel (b : Base) : Level := if b.level = 0 then Level.warning else b.level

/-- Records of this level are written. No level makes up for one that is not positive. -/
def enabled (b : Base) (level : Level) : Bool := 0 < level && b.effectiveLevel ≤ level

/-- The line that a handler writes for a record, none if the record cannot be written. -/
def handled (r : Record) (micros : Int) (h : Handler) : Option Written :=
  match r.line h.format micros with
  | .ok line => some ⟨h.stream, line ++ ['\n']⟩
  | .error _ => none

/-- What is written for a record. -/
def emit (b : Base) (micros : Int) (r : Record) : List Written :=
  if !b.enabled r.level then []
  else if b.handlers.isEmpty then
    if Level.warning ≤ r.level then r.bare.toList else []
  else b.handlers.filterMap (handled r micros)

/-- What is written for records, one after the other. -/
def emitAll (b : Base) (micros : Int) (rs : List Record) : List Written :=
  rs.flatMap (b.emit micros)

end Base

end LinkTemplate.Log
