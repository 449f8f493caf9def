import LinkTemplate.Binding.Assignment
import LinkTemplate.Datum.Coercion

/-!
# Lookups

Expansion asks a *lookup* for the variables it meets, by name and no earlier than it needs them.
A lookup answers with a datum, or fails. The datum `null` says that the variable is undefined.
A datum that is no template value is a mistake of the lookup, found when it is used.

The lookups of this library coerce what they hold when asked: `mapping` from names to data,
`pairs` in which the first pair with the name counts, and `chain`, in which the first source
that defines the name counts. A caller may bring lookups of its own.
-/

namespace LinkTemplate

/-- Where the answers of a lookup come from. -/
inductive Lookup.Kind where
  | mapping
  | pairs
  | chain
  /-- A lookup that the caller brings, under a label of its own. -/
  | custom (label : Text)
  deriving DecidableEq, Inhabited

/-- Something to ask for variables. -/
structure Lookup where
  kind : Lookup.Kind
  /-- The datum for a name, `null` if there is none. -/
  get : Text → Except Failure Datum

namespace Datum

/-- The datum coerced for a variable of this name. -/
def coerced (name : Text) (d : Datum) : Except Failure Datum := do
  match ← d.coerce (some name) with
  | none => return null
  | some v => return value v

mutual

/-- The datum can be a key of a mapping: nothing in it can change, and it is not a signal. -/
def isKey : Datum → Bool
  | seq kind items => kind.isTuple && areKeys items
  | map .. => false
  | foreign f => f.isKey
  | decimal (.nan _ signaling _) => !signaling
  | _ => true

/-- All of the data can be keys. -/
def areKeys : List Datum → Bool
  | [] => true
  | d :: rest => d.isKey && areKeys rest

end

end Datum

namespace Lookup

/-- The entries of a mapping that a name can find. Later entries of a name win. -/
def ofEntries (entries : List (Datum × Datum)) : Assignment Datum :=
  Assignment.ofList (entries.filterMap fun
    | (.text name, d) => some (name, d)
    | _ => none)

/-- Look names up in an assignment. -/
def mapping (entries : Assignment Datum) : Lookup where
  kind := .mapping
  get name :=
    match entries.get? name with
    | none => .ok .null
    | some d => d.coerced name

/-- The datum that the first pair with this name holds. Elements are taken apart one after the
other, and none behind the pair that is found. -/
def firstPair (name : Text) : List Datum → Except Failure Datum
  | [] => .ok .null
  | element :: rest => do
    let (key, d) ← element.toPair
    if key.isText name then d.coerced name else firstPair name rest

/-- Look names up in a sequence of pairs. -/
def pairs (elements : List Datum) : Lookup where
  kind := .pairs
  get name := firstPair name elements

/-- The first datum that is not `null`. -/
def firstDefined (name : Text) : List Lookup → Except Failure Datum
  | [] => .ok .null
  | source :: rest => do
    match ← source.get name with
    | .null => firstDefined name rest
    | d => return d

/-- Look names up in several sources. -/
def chain (sources : List Lookup) : Lookup where
  kind := .chain
  get name := firstDefined name sources

/-- A lookup that always answers, with a value or not at all. -/
def ofValues (value? : Text → Option Value) : Lookup where
  kind := .custom []
  get name := .ok (match value? name with
    | none => .null
    | some v => .value v)

/-- The value of a variable, none if it is undefined. -/
def value? (l : Lookup) (name : Text) : Except Failure (Option Value) :=
  match l.get name with
  | .error failure => .error failure
  | .ok .null => .ok none
  | .ok (.value v) => .ok (some v)
  | .ok d => .error (.unusable d.typeName (some name))

theorem value?_ofValues (f : Text → Option Value) (name : Text) :
    (ofValues f).value? name = .ok (f name) := by
  cases h : f name <;> simp [value?, ofValues, h]

end Lookup

/-! ## What may be given as variables -/

/-- What a caller gives as variables: data, or a lookup. -/
inductive Variables where
  | data (d : Datum)
  | lookup (l : Lookup)

namespace Variables

/-- The lookup behind variables. No data means no variables. -/
def base : Variables → Except Failure Lookup
  | lookup l => .ok l
  | data .null => .ok (.mapping [])
  | data (.map _ entries) => .ok (.mapping (Lookup.ofEntries entries))
  | data (.seq _ items) => .ok (.pairs items)
  | data d => .error (.unusable d.typeName none)

/-- The lookup behind variables and further bindings, which come first. -/
def toLookup (vars : Variables) (overrides : Assignment Datum) : Except Failure Lookup := do
  let base ← vars.base
  if overrides.isEmpty then return base else return .chain [.mapping overrides, base]

/-- A member of what is to become a mapping: a pair whose first half can be a key. -/
def entry (d : Datum) : Except Failure (Datum × Datum) := do
  let (key, d) ← d.toPair
  if key.isKey then return (key, d) else .error .notAKey

/-- The variables as a mapping of their own. A mapping is one already, and so is an association
without pairs; other data must consist of pairs. -/
def toMapping : Variables → Except Failure (Assignment Datum)
  | lookup _ => .error .notIterable
  | data (.map _ entries) => .ok (Lookup.ofEntries entries)
  | data (.value (.assoc [])) => .ok []
  | data d => do
    return Lookup.ofEntries (← (← d.membersOrFail).mapM entry)

end Variables

end LinkTemplate
