import LinkTemplate.Log.Level
import LinkTemplate.Log.Message
import LinkTemplate.Naming
import LinkTemplate.Expansion
import LinkTemplate.Settings.Environment

/-!
# Log records

A record says who reports what and how severe it is, and may carry data as its context. The
notes that reading, expansion and settings leave become records here.

Text that comes from outside enters a message only in quotes. Some records are *traces*, made
only when tracing is on; a trace shows its context in its message as well. None of these records
has arguments, so their messages are written as they stand.
-/

namespace LinkTemplate.Log

open Text

/-- A log record. -/
structure Record where
  /-- The full name of the logger. -/
  logger : Text
  level : Level
  message : Text
  /-- What fills the placeholders of the message when it is written. -/
  arguments : List Datum := []
  /-- Data that rides along, `null` if there is none. -/
  context : Datum := .null
  deriving Inhabited

/-- The message with its placeholders filled. -/
def Record.filled (r : Record) : Except Failure Text := Message.fill r.message r.arguments

/-- The context with the given entries. -/
def contextOf (entries : List (Text × Datum)) : Datum :=
  .map .plain (entries.map fun (key, d) => (.text key, d))

/-- The names that a trace has for its own parts. -/
def ownNames : List Text := ["logger".toList, "message".toList]

/-- A message and its context. -/
def traceForm : Text := "%s | ctx=%r".toList

/-- A trace. Its message is followed by the context, if there is any. A context that uses one of
the trace's own names cannot be told from its parts. -/
def trace (logger message : Text) (entries : List (Text × Datum)) : Except Failure Record :=
  if entries.any fun (key, _) => ownNames.contains key then .error .argumentMismatch
  else if entries.isEmpty then .ok { logger, level := Level.debug, message }
  else
    .ok {
      logger
      level := Level.debug
      message := traceForm
      arguments := [.text message, contextOf entries]
      context := contextOf entries }

/-- A trace about one text. -/
def traceText (logger message key text : Text) : Record where
  logger := logger
  level := Level.debug
  message :=
    message ++ " | ctx=".toList ++ MapKind.plain.wrap [(quoted key, quoted text)]
  context := contextOf [(key, .text text)]

/-- A trace about one text is the trace with that one entry, its placeholders filled. -/
theorem filled_trace (logger message key text : Text) (h : key ∉ ownNames) :
    (trace logger message [(key, .text text)]).bind Record.filled =
      .ok (traceText logger message key text).message := by
  have form : pieces traceForm =
      .placeholder ⟨.arguments, {}, .absent, .absent, some 's'⟩ ::
        (" | ctx=".toList.map .char ++
          [.placeholder ⟨.arguments, {}, .absent, .absent, some 'r'⟩]) := by
    have first : Placeholder.read ('s' :: " | ctx=%r".toList) =
        (⟨.arguments, {}, .absent, .absent, some 's'⟩, " | ctx=%r".toList) := by
      decide
    have last : Placeholder.read ['r'] =
        (⟨.arguments, {}, .absent, .absent, some 'r'⟩, []) := by
      decide
    have middle : pieces " | ctx=%r".toList =
        " | ctx=".toList.map .char ++ pieces ['%', 'r'] := by
      change pieces [' ', '|', ' ', 'c', 't', 'x', '=', '%', 'r'] = _
      simp [pieces_char]
    change pieces ('%' :: 's' :: " | ctx=%r".toList) = _
    rw [pieces_placeholder (by decide), first, middle, pieces_placeholder (by decide), last]
    simp only [pieces]
  have own : ¬ ([(key, Datum.text text)].any fun (key, _) => ownNames.contains key) = true := by
    simpa using h
  rw [trace, if_neg own]
  simp [Except.bind, Record.filled, Message.fill, form, Message.fillPieces, Message.fillOne,
    Message.Supply.choose, Message.Supply.measure, Message.Supply.next, Message.convert,
    Message.Layout.text, Message.Layout.fillBlanks, Datum.plain, Datum.written,
    Datum.writtenEntries, contextOf, traceText, bind, pure, Except.pure]

end Log

/-! ## Notes as records -/

open Log

/-- An expression was kept as a literal. -/
def Degradation.record (d : Degradation) : Record where
  logger := Naming.parsing
  level := Level.debug
  message := d.message

/-- Expansion passed over a variable. -/
def Skip.record (s : Skip) : Record :=
  traceText Naming.expansion s.message "varname".toList s.name

/-- A variable of the environment was ignored. -/
def Complaint.record (c : Complaint) : Record where
  logger := Naming.config
  level := Level.warning
  message := c.message

/-- Tracing is asked for by exactly `1`. -/
def tracing (env : Environment) : Bool :=
  Assignment.get? Naming.traceKey env = some ['1']

/-- The records of reading a text. -/
def Template.parseRecords (settings : Settings) (text : Text) : List Record :=
  (Template.parseNotes settings text).map Degradation.record

/-- The records of expanding a template, which are all traces. -/
def Template.expandRecords (traced : Bool) (t : Template) (l : Lookup) : List Record :=
  if traced then (t.skips l).map Skip.record else []

/-- The records of taking settings from an environment. -/
def Settings.records (env : Environment) : List Record :=
  (Settings.complaints env).map Complaint.record

end LinkTemplate
