import LinkTemplate.Datum.Text

/-!
# JSON text

Records are written as JSON on one line: a blank behind every comma and colon, no other white
space, and no character escaped that need not be. Quotes, backslashes and the control characters
below the space are escaped, so no text can end its string or the line.

Data has a JSON form if it is made of texts, numbers, truth values, `null`, sequences and
mappings with scalar keys; the key of an entry becomes its text.
-/

namespace LinkTemplate.Log.Json

open Text

/-- A character inside a JSON string. -/
def escapedChar (c : Char) : Text :=
  if c = '"' then ['\\', '"']
  else if c = '\\' then ['\\', '\\']
  else if c = '\n' then ['\\', 'n']
  else if c = '\r' then ['\\', 'r']
  else if c = '\t' then ['\\', 't']
  else if c = '\x08' then ['\\', 'b']
  else if c = '\x0c' then ['\\', 'f']
  else if c.toNat < 0x20 then '\\' :: 'u' :: hexDigits 4 c.toNat
  else [c]

/-- A text as a JSON string. -/
def string (text : Text) : Text := '"' :: text.flatMap escapedChar ++ ['"']

/-- An object with members in the given order, the names being JSON strings already. -/
def object (members : List (Text × Text)) : Text :=
  '\x7b' :: commaSeparated (members.map fun (name, x) => name ++ [':', ' '] ++ x) ++ ['\x7d']

/-- An array. -/
def array (items : List Text) : Text := '[' :: commaSeparated items ++ [']']

/-- A double. The values that are not finite have names. -/
def double : Binary64 → Text
  | .nan => "NaN".toList
  | .infinity negative => Numeral.signText negative ++ "Infinity".toList
  | x => x.toText

/-- A truth value. -/
def bool (b : Bool) : Text := if b then "true".toList else "false".toList

/-- The text that a scalar has as a key. -/
def keyText : Datum → Except Failure Text
  | .text t => .ok t
  | .null => .ok "null".toList
  | .bool b => .ok (bool b)
  | .int n => Datum.intText n
  | .float x => .ok (double x)
  | _ => .error .notJson

mutual

/-- A datum in JSON. -/
def ofDatum : Datum → Except Failure Text
  | .null => .ok "null".toList
  | .bool b => .ok (bool b)
  | .text t => .ok (string t)
  | .int n => Datum.intText n
  | .float x => .ok (double x)
  | .seq _ items => do return array (← ofItems items)
  | .map .readOnly _ => .error .notJson
  | .map _ entries => do return object (← ofEntries entries)
  | .decimal _ | .value _ | .foreign _ => .error .notJson

/-- The items of a sequence in JSON. -/
def ofItems : List Datum → Except Failure (List Text)
  | [] => .ok []
  | item :: rest => do
    let item ← ofDatum item
    return item :: (← ofItems rest)

/-- The entries of a mapping in JSON. -/
def ofEntries : List (Datum × Datum) → Except Failure (List (Text × Text))
  | [] => .ok []
  | (k, v) :: rest => do
    let k ← keyText k
    let v ← ofDatum v
    return (string k, v) :: (← ofEntries rest)

end

end LinkTemplate.Log.Json
