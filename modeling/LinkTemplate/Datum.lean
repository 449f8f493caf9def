import LinkTemplate.Value
import LinkTemplate.Failure
import LinkTemplate.Decimal.Numeral
import LinkTemplate.Decimal.Binary64

/-!
# Data of the calling program

Variables are bound to the data of the program that uses templates, which knows more types than
templates do: numbers of three kinds, truth values, sequences, mappings, and objects that mean
nothing to a template. `Datum` is that data. A datum has a type name, which messages give, and
possibly *members*: what one meets when going through it.

The program may define types of its own. A type that is derived from a sequence or a mapping is one
of these under another name; of an object of any other type nothing is known but its answers.
-/

namespace LinkTemplate

/-- The types of sequences. -/
inductive SeqKind where
  | list
  | tuple
  /-- A type derived from one of these, under a name of its own. -/
  | derived (fromTuple : Bool) (typeName : Text)
  deriving DecidableEq, Inhabited

/-- The types of mappings. All keep their entries in order of insertion. -/
inductive MapKind where
  | plain
  | ordered
  | readOnly
  /-- A type derived from the plain or the ordered one, under a name of its own. -/
  | derived (fromOrdered : Bool) (typeName : Text)
  deriving DecidableEq, Inhabited

/-- An object without a template value, by what it answers. -/
structure Foreign (δ : Type) where
  typeName : Text
  /-- What is met when going through it, the same every time, if one can. -/
  members : Option (List δ) := none
  /-- The form that shows the type. -/
  written : Except Failure Text
  /-- The form in which it becomes part of a text. -/
  plain : Except Failure Text := written
  /-- It can be a key of a mapping. -/
  isKey : Bool := true

/-- A datum of the calling program. -/
inductive Datum where
  /-- The absence of a datum; a variable bound to it is undefined. -/
  | null
  | bool (b : Bool)
  | text (t : Text)
  | int (n : Int)
  | float (x : Binary64)
  | decimal (x : Numeral)
  | seq (kind : SeqKind) (items : List Datum)
  | map (kind : MapKind) (entries : List (Datum × Datum))
  /-- A template value that is ready for use. -/
  | value (v : Value)
  | foreign (f : Foreign Datum)
  deriving Inhabited

/-- The type name of a mapping. -/
def MapKind.typeName : MapKind → Text
  | plain => "dict".toList
  | ordered => "OrderedDict".toList
  | readOnly => "mappingproxy".toList
  | derived _ typeName => typeName

/-- The type name of a sequence. -/
def SeqKind.typeName : SeqKind → Text
  | list => "list".toList
  | tuple => "tuple".toList
  | derived _ typeName => typeName

/-- A tuple, or of a type derived from it. -/
def SeqKind.isTuple : SeqKind → Bool
  | list => false
  | tuple => true
  | derived fromTuple _ => fromTuple

/-- The type name of a template value. -/
def Value.typeName : Value → Text
  | string _ => "StringValue".toList
  | list _ => "ListValue".toList
  | assoc _ => "AssocValue".toList

namespace Datum

/-- The type name of a datum. -/
def typeName : Datum → Text
  | null => "NoneType".toList
  | bool _ => "bool".toList
  | text _ => "str".toList
  | int _ => "int".toList
  | float _ => "float".toList
  | decimal _ => "Decimal".toList
  | seq kind _ => kind.typeName
  | map kind _ => kind.typeName
  | value v => v.typeName
  | foreign f => f.typeName

/-- The datum is this text. -/
def isText (name : Text) : Datum → Bool
  | text t => t = name
  | _ => false

/-- What is met when going through a datum: the characters of a text, the items of a sequence,
the keys of a mapping, and whatever an object gives out. -/
def members : Datum → Option (List Datum)
  | text t => some (t.map fun c => text [c])
  | seq _ items => some items
  | map _ entries => some (entries.map Prod.fst)
  | foreign f => f.members
  | _ => none

end Datum

end LinkTemplate
