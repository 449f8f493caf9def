import LinkTemplate.Settings
import LinkTemplate.Naming
import LinkTemplate.Binding.Assignment
import LinkTemplate.Decimal.Integer
import LinkTemplate.Text.Blank
import LinkTemplate.Text.Case
import LinkTemplate.Text.Quoted

/-!
# Settings from the environment

Each setting has a variable of its own. A variable that is absent leaves the default. One that
cannot be understood leaves it too, and a complaint quotes it. No text makes this fail.

A flag is one of a few words, in any case and between any blanks, and an empty text says no. The
size of the cache is a whole number in decimal digits of any script, not negative; an empty text
says nothing.
-/

namespace LinkTemplate

open Text Decimal

/-- What a variable should have held. -/
inductive Expected where
  | flag
  | integer
  | nonNegative
  deriving DecidableEq, Inhabited

/-- A variable that is ignored because of its text. -/
structure Complaint where
  key : Text
  raw : Text
  expected : Expected
  deriving DecidableEq, Inhabited

/-- The wording of what was expected. -/
def Expected.message : Expected → Text
  | flag => "expected a boolean flag".toList
  | integer => "expected an integer".toList
  | nonNegative => "must not be negative".toList

/-- The wording of a complaint. -/
def Complaint.message (c : Complaint) : Text :=
  "⚠  ignoring ".toList ++ c.key ++ '=' :: quoted c.raw ++ ' ' :: '(' :: c.expected.message ++ [')']

namespace Settings

/-- The words that set a flag. -/
def truthy : List Text := ["1".toList, "true".toList, "yes".toList, "on".toList]

/-- The words that clear a flag. -/
def falsy : List Text := ["0".toList, "false".toList, "no".toList, "off".toList, []]

/-- A text as a flag. -/
def readFlag (raw : Text) : Except Expected Bool :=
  let word := smalls (trim raw)
  if word ∈ truthy then .ok true
  else if word ∈ falsy then .ok false
  else .error .flag

/-- A text as a size, none if it is blank. -/
def readSize (raw : Text) : Except Expected (Option Nat) :=
  if (trim raw).isEmpty then .ok none
  else match readInt? (trim raw) with
    | none => .error .integer
    | some n => if n < 0 then .error .nonNegative else .ok (some n.toNat)

/-- What a variable says, and the complaint about it if it says nothing. -/
def consult {β : Type} (env : Environment) (key : Text) (read : Text → Except Expected β) :
    Option β × List Complaint :=
  match Assignment.get? key env with
  | none => (none, [])
  | some raw =>
    match read raw with
    | .ok b => (some b, [])
    | .error expected => (none, [⟨key, raw, expected⟩])

/-- The settings that an environment asks for. -/
def ofEnvironment (env : Environment) : Settings :=
  let encodeLiterals := (consult env Naming.encodeLiteralsKey readFlag).1
  let parseCacheSize := (consult env Naming.parseCacheSizeKey readSize).1
  let logDegraded := (consult env Naming.logDegradedKey readFlag).1
  let default : Settings := {}
  { encodeLiterals := encodeLiterals.getD default.encodeLiterals
    parseCacheSize :=
      match parseCacheSize.join with
      | some n => some (n : Int)
      | none => default.parseCacheSize
    logDegraded := logDegraded.getD default.logDegraded }

/-- The complaints about an environment, in the order of the settings. -/
def complaints (env : Environment) : List Complaint :=
  (consult env Naming.encodeLiteralsKey readFlag).2 ++
    (consult env Naming.parseCacheSizeKey readSize).2 ++
    (consult env Naming.logDegradedKey readFlag).2

end Settings

end LinkTemplate
