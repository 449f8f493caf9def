import LinkTemplate.Expansion

/-!
# Building bindings step by step

A builder holds a template and bindings of names to values, which are added and removed one at a
time. A binding asks for a shape of value, and the datum is converted to it; if that fails, the
bindings stay as they were. Expanding changes nothing.
-/

namespace LinkTemplate

/-- The shapes of values. -/
inductive Shape where
  | string
  | list
  | assoc
  deriving DecidableEq, Inhabited

/-- A datum converted to a value of the shape. -/
def Shape.value : Shape → Datum → Except Failure Value
  | string, d => d.toStringValue
  | list, d => d.toListValue
  | assoc, d => d.toAssocValue

/-- A template with the bindings made so far. -/
structure Builder where
  template : Template
  bindings : Assignment Value := []
  deriving Inhabited

namespace Builder

/-- Bind a name to a value. -/
def bindValue (b : Builder) (name : Text) (v : Value) : Builder :=
  { b with bindings := b.bindings.set name v }

/-- Bind a name to a datum in the given shape. -/
def bind (b : Builder) (shape : Shape) (name : Text) (d : Datum) : Except Failure Builder := do
  return b.bindValue name (← shape.value d)

/-- Remove the binding of a name. -/
def unbind (b : Builder) (name : Text) : Builder := { b with bindings := b.bindings.unset name }

/-- The text of the template under the bindings. -/
def expand (b : Builder) : Except Failure Text :=
  b.template.expand (Lookup.mapping (b.bindings.map fun (name, v) => (name, .value v)))

end Builder

end LinkTemplate
