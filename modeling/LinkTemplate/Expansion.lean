import LinkTemplate.Template
import LinkTemplate.Binding.Lookup
import LinkTemplate.Expansion.Rules
import LinkTemplate.Expansion.Separator

/-!
# Expansion

Expanding a template replaces its expressions by the values of their variables. The variables of
an expression are looked up in order; then what they are worth is written under the rules of the
operator. Undefined variables and absent values are passed over and leave no separator.

Looking up may fail, writing never does. The failure of a template is the first one that looking
up its variables in order meets. Passing over a variable can be noted; `skips` are these notes.
-/

namespace LinkTemplate

open Text

/-! ## Writing values -/

/-- The first characters of a text: up to `size` of them or, with a negative size, all but that
many at the end. -/
def limited (size : Int) (text : Text) : Text :=
  if size < 0 then text.take (text.length - size.natAbs) else text.take size.toNat

namespace Varspec

/-- The name of the variable in a URI. -/
def uriName (v : Varspec) : Text := Percent.encode isUnreserved v.name

/-- The text under the limit of the variable. -/
def limit (v : Varspec) (text : Text) : Text :=
  match v.limit? with
  | some size => limited size text
  | none => text

end Varspec

namespace Rules

/-- A value under the policy of the operator. -/
def escape (rules : Rules) (text : Text) : Text := rules.policy.escape text

/-- A string, behind the name of its variable if values are named. -/
def stringText (rules : Rules) (v : Varspec) (text : Text) : Text :=
  if rules.named then
    v.uriName ++ (if (v.limit text).isEmpty then rules.ifEmpty else ['=']) ++
      rules.escape (v.limit text)
  else rules.escape (v.limit text)

/-- What stands in front of a composite value as a whole. -/
def compositeName (rules : Rules) (v : Varspec) : Text :=
  if rules.named then v.uriName ++ ['='] else []

/-- The items of a list, between commas. -/
def listText (rules : Rules) (v : Varspec) (items : List Text) : Text :=
  rules.compositeName v ++ Separator.join ⟨[], [',']⟩ (items.map rules.escape)

/-- The keys and values of an association alternately, between commas. -/
def assocText (rules : Rules) (v : Varspec) (pairs : List (Text × Text)) : Text :=
  rules.compositeName v ++
    Separator.join ⟨[], [',']⟩ (pairs.map fun (k, x) => rules.escape k ++ ',' :: rules.escape x)

/-- The items of a list, each as a string of its own. -/
def explodedListText (rules : Rules) (v : Varspec) (items : List Text) : Text :=
  Separator.join ⟨[], rules.sep⟩ (items.map fun item =>
    if rules.named then
      v.uriName ++ (if item.isEmpty then rules.ifEmpty else '=' :: rules.escape item)
    else rules.escape item)

/-- The pairs of an association, each as a named string of its own. -/
def explodedAssocText (rules : Rules) (pairs : List (Text × Text)) : Text :=
  Separator.join ⟨[], rules.sep⟩ (pairs.map fun (k, x) =>
    rules.escape k ++
      (if rules.named && x.isEmpty then rules.ifEmpty else '=' :: rules.escape x))

/-- A value that is not absent. A limit says nothing about composite values. -/
def valueText (rules : Rules) (v : Varspec) : Value → Text
  | .string text => rules.stringText v text
  | .list items => if v.isExploded then rules.explodedListText v items else rules.listText v items
  | .assoc pairs => if v.isExploded then rules.explodedAssocText pairs else rules.assocText v pairs

/-- The variables of an expression with their values, in order. -/
def varsText (rules : Rules) (sep : Separator) : List (Varspec × Option Value) → Text
  | [] => []
  | (_, none) :: rest => rules.varsText sep rest
  | (v, some value) :: rest =>
    if value.isAbsent then rules.varsText sep rest
    else sep.next ++ rules.valueText v value ++ rules.varsText sep.advance rest

end Rules

/-! ## Expressions and templates -/

namespace Expression

/-- The variables of an expression with the values that a lookup has for them. -/
def bind (e : Expression) (l : Lookup) : Except Failure (List (Varspec × Option Value)) :=
  e.vars.mapM fun v => do return (v, ← l.value? v.name)

/-- The text of an expression. -/
def expand (e : Expression) (l : Lookup) : Except Failure Text := do
  let rules := Rules.of e.operator
  return rules.varsText ⟨rules.first, rules.sep⟩ (← e.bind l)

end Expression

/-- The text of a literal: as it is, or escaped like a value that may hold any URI character. -/
def literalText (encodeLiterals : Bool) (text : Text) : Text :=
  if encodeLiterals then Percent.encode isUriChar text else text

/-- The text of an item. -/
def Item.expand (encodeLiterals : Bool) (l : Lookup) : Item → Except Failure Text
  | literal text => .ok (literalText encodeLiterals text)
  | expression e => e.expand l

/-- The texts of items, one after the other. -/
def expandItems (encodeLiterals : Bool) (items : List Item) (l : Lookup) : Except Failure Text := do
  return (← items.mapM (Item.expand encodeLiterals l)).flatten

namespace Template

/-- The text of a template under a lookup. -/
def expand (t : Template) (l : Lookup) : Except Failure Text :=
  expandItems t.settings.encodeLiterals t.items l

/-- The text of a template under what a caller gives as variables. -/
def expandWith (t : Template) (vars : Variables) (overrides : Assignment Datum) :
    Except Failure Text := do
  t.expand (← vars.toLookup overrides)

end Template

/-! ## Notes on variables that are passed over -/

/-- A variable that expansion passes over. -/
inductive Skip where
  | undefined (name : Text)
  /-- The variable has an empty list or association. -/
  | absent (name : Text)
  deriving DecidableEq, Inhabited

namespace Skip

/-- The name of the variable. -/
def name : Skip → Text
  | undefined name => name
  | absent name => name

/-- The wording of the note, less the name. -/
def message : Skip → Text
  | undefined _ => "undefined variable skipped".toList
  | absent _ => "empty composite value skipped".toList

end Skip

/-- The variables that are passed over when names are looked up in order, up to the first
failure. -/
def Lookup.skips (l : Lookup) : List Text → List Skip
  | [] => []
  | name :: rest =>
    match l.value? name with
    | .error _ => []
    | .ok none => .undefined name :: l.skips rest
    | .ok (some value) => if value.isAbsent then .absent name :: l.skips rest else l.skips rest

/-- The variables that expanding the template passes over. -/
def Template.skips (t : Template) (l : Lookup) : List Skip := l.skips t.visits

end LinkTemplate
