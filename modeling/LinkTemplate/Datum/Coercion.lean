import LinkTemplate.Datum.Text

/-!
# From data to template values

Data becomes a value in one of two ways. *Coercion* is what happens to a bound variable: scalars
become strings, containers of scalars become lists and associations, and everything else is
refused in the name of the variable. *Conversion* is what a caller asks for by name: a string, a
list or an association, built from the plain text of whatever the data holds.
-/

namespace LinkTemplate

open Decimal

namespace Datum

/-! ## Coercion -/

/-- The text of a scalar, none if the datum is not a scalar. -/
def scalarText : Datum → Except Failure (Option Text)
  | text t => .ok (some t)
  | bool b => .ok (some (if b then "true".toList else "false".toList))
  | int n => do return some (← intText n)
  | float x => .ok (some x.toText)
  | decimal x => .ok (some x.toText)
  | _ => .ok none

/-- The texts of a sequence of scalars; `refusal` if one is not. -/
def itemTexts (refusal : Failure) : List Datum → Except Failure (List Text)
  | [] => .ok []
  | item :: rest => do
    match ← item.scalarText with
    | none => .error refusal
    | some t => return t :: (← itemTexts refusal rest)

/-- The texts of a mapping between scalars. Both halves of an entry are written before either is
judged, so a number too long to write decides over a half that is no scalar. -/
def entryTexts (refusal : Failure) : List (Datum × Datum) → Except Failure (List (Text × Text))
  | [] => .ok []
  | (k, v) :: rest => do
    let k ← k.scalarText
    let v ← v.scalarText
    match k, v with
    | some k, some v => return (k, v) :: (← entryTexts refusal rest)
    | _, _ => .error refusal

/-- The value of a datum bound to a variable; none leaves the variable undefined. -/
def coerce (name : Option Text) (d : Datum) : Except Failure (Option Value) :=
  match d with
  | null => .ok none
  | value v => .ok (some v)
  | map _ entries => do
    return some (.assoc (← entryTexts (.unusable d.typeName name) entries))
  | seq _ items => do
    return some (.list (← itemTexts (.unusable d.typeName name) items))
  | d => do
    match ← d.scalarText with
    | some t => return some (.string t)
    | none => .error (.unusable d.typeName name)

/-! ## Conversion -/

/-- The members of a datum that must have some. -/
def membersOrFail (d : Datum) : Except Failure (List Datum) :=
  match d.members with
  | some ds => .ok ds
  | none => .error .notIterable

/-- The two members of a datum that must be a pair. -/
def toPair (d : Datum) : Except Failure (Datum × Datum) := do
  match ← d.membersOrFail with
  | [a, b] => return (a, b)
  | _ => .error .notAPair

/-- The string of a datum. -/
def toStringValue (d : Datum) : Except Failure Value := do
  return .string (← d.plain)

/-- The list of the members of a datum. -/
def toListValue (d : Datum) : Except Failure Value := do
  return .list (← (← d.membersOrFail).mapM plain)

/-- The plain texts of a pair. -/
def plainPair (k v : Datum) : Except Failure (Text × Text) := do
  let k ← k.plain
  let v ← v.plain
  return (k, v)

/-- The association of the entries of a mapping, or of the members of another datum that are
pairs. -/
def toAssocValue : Datum → Except Failure Value
  | map _ entries => do
    return .assoc (← entries.mapM fun (k, v) => plainPair k v)
  | d => do
    return .assoc (← (← d.membersOrFail).mapM fun d => do
      let (k, v) ← d.toPair
      plainPair k v)

end Datum

end LinkTemplate
