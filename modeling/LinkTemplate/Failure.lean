import LinkTemplate.Text.Quoted

/-!
# Failures

Template text never fails to be read for its grammar: what does not match is kept as a literal.
What can fail is the data around it, and each way of failing is a cause of its own. Only
`unusable` is a statement about a variable and carries a message; it is also the only failure
that an engine answers by returning the template as it stands.
-/

namespace LinkTemplate

open Text

/-- Why an operation has no result. -/
inductive Failure where
  /-- A number has more decimal digits than can be read or written. -/
  | tooManyDigits
  /-- Something that is no number, although it stands where one should. -/
  | notANumber
  /-- Something that should be a pair does not have two members. -/
  | notAPair
  /-- Something that should be gone through has no members. -/
  | notIterable
  /-- Something that should name an entry cannot be a key. -/
  | notAKey
  /-- Data of this type has no value, bound to this variable if one is known. -/
  | unusable (typeName : Text) (name : Option Text)
  /-- Something in a context has no JSON form. -/
  | notJson
  /-- The placeholders of a message and its arguments differ in number or kind. -/
  | argumentMismatch
  /-- A placeholder of a message is unknown, unfinished or too wide. -/
  | badPlaceholder
  /-- A number is too large for what it should stand for. -/
  | outOfRange
  /-- A placeholder names an entry that is not there. -/
  | noEntry
  /-- A time lies outside the years 1 to 9999. -/
  | timeOutOfRange
  deriving DecidableEq, Inhabited

/-- The message about a variable that cannot be used. An empty name is not worth mentioning. -/
def unusableMessage (typeName : Text) (name : Option Text) : Text :=
  "cannot use ".toList ++ typeName ++ " as a URI template value".toList ++
    match name with
    | none => []
    | some name => if name.isEmpty then [] else " for variable ".toList ++ quoted name

/-- The message of a failure that has one. -/
def Failure.message? : Failure → Option Text
  | .unusable typeName name => some (unusableMessage typeName name)
  | _ => none

end LinkTemplate
