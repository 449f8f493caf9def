import LinkTemplate.Datum
import LinkTemplate.Decimal.Shortest

/-!
# Data as text

A datum has two text forms. The *written* form shows its type: texts stand in quotes, exact
decimals in their constructor, and containers in brackets around their written members. The
*plain* form differs from it only at the top: a text is itself, a number is bare, and a read-only
mapping shows its contents alone. An object has the forms that its type gives it.

Both fail on a whole number beyond the digit limit, wherever it occurs.
-/

namespace LinkTemplate

open Text Decimal

/-- Pieces with `, ` between them. -/
def commaSeparated (pieces : List Text) : Text := List.intercalate [',', ' '] pieces

/-- A sequence of written items. A tuple of one keeps a comma, to tell it from a parenthesis. -/
def SeqKind.wrap (kind : SeqKind) (items : List Text) : Text :=
  if kind.isTuple then
    match items with
    | [item] => '(' :: item ++ [',', ')']
    | items => '(' :: commaSeparated items ++ [')']
  else '[' :: commaSeparated items ++ [']']

/-- A type name and an argument in parentheses. -/
def constructorText (typeName argument : Text) : Text := typeName ++ '(' :: argument ++ [')']

/-- A mapping of written keys and values. -/
def MapKind.wrap (kind : MapKind) (entries : List (Text × Text)) : Text :=
  let braced :=
    '\x7b' :: commaSeparated (entries.map fun (k, v) => k ++ [':', ' '] ++ v) ++ ['\x7d']
  match kind with
  | plain | derived false _ => braced
  | readOnly => constructorText kind.typeName braced
  | ordered | derived true _ =>
    constructorText kind.typeName
      (if entries.isEmpty then []
      else SeqKind.list.wrap (entries.map fun (k, v) => SeqKind.tuple.wrap [k, v]))

/-- A template value by its shape. -/
def Value.written : Value → Text
  | string t => constructorText (string t).typeName ("text=".toList ++ quoted t)
  | list items =>
    constructorText (list items).typeName
      ("items=".toList ++ SeqKind.tuple.wrap (items.map quoted))
  | assoc pairs =>
    constructorText (assoc pairs).typeName
      ("pairs=".toList ++
        SeqKind.tuple.wrap (pairs.map fun (k, v) => SeqKind.tuple.wrap [quoted k, quoted v]))

namespace Datum

/-- A whole number, within the digit limit. -/
def intText (n : Int) : Except Failure Text :=
  match intText? n with
  | some t => .ok t
  | none => .error .tooManyDigits

mutual

/-- The form that shows the type. -/
def written : Datum → Except Failure Text
  | null => .ok "None".toList
  | bool b => .ok (if b then "True".toList else "False".toList)
  | text t => .ok (quoted t)
  | int n => intText n
  | float x => .ok x.toText
  | decimal x => .ok ("Decimal('".toList ++ x.toText ++ "')".toList)
  | seq kind items => do return kind.wrap (← writtenItems items)
  | map kind entries => do return kind.wrap (← writtenEntries entries)
  | value v => .ok v.written
  | foreign f => f.written

/-- The written items of a sequence. -/
def writtenItems : List Datum → Except Failure (List Text)
  | [] => .ok []
  | item :: rest => do
    let item ← item.written
    return item :: (← writtenItems rest)

/-- The written entries of a mapping. -/
def writtenEntries : List (Datum × Datum) → Except Failure (List (Text × Text))
  | [] => .ok []
  | (k, v) :: rest => do
    let k ← k.written
    let v ← v.written
    return (k, v) :: (← writtenEntries rest)

end

/-- The form in which a datum becomes part of a text. A read-only mapping is a view, and shows the
mapping it is a view of. -/
def plain : Datum → Except Failure Text
  | text t => .ok t
  | decimal x => .ok x.toText
  | map .readOnly entries => (map .plain entries).written
  | foreign f => f.plain
  | d => d.written

end Datum

end LinkTemplate
