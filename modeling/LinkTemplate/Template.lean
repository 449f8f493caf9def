import LinkTemplate.Template.Span
import LinkTemplate.Settings

/-!
# Templates

A template is a list of items together with the settings it was made with. Reading a text gives
the items of its spans. It fails only where a limit is a number beyond the digit limit; every
other text is a template, if need be one of literals.

Two templates are the same if their items are; the settings do not take part.
-/

namespace LinkTemplate

open Text

/-- A template that has been read, or put together by hand. -/
structure Template where
  items : List Item
  settings : Settings := {}
  deriving DecidableEq, Inhabited

namespace Template

/-- The items of a template text. -/
def readItems (text : Text) : Except Failure (List Item) := (Span.scan text).mapM Span.item

/-- A template text as a template. -/
def parse (settings : Settings) (text : Text) : Except Failure Template := do
  return ⟨← readItems text, settings⟩

/-- The notes that reading a text leaves, if the settings ask for them. -/
def parseNotes (settings : Settings) (text : Text) : List Degradation :=
  if settings.logDegraded then Span.degradations (Span.scan text) else []

/-- The expressions of the template, in order. -/
def expressions (t : Template) : List Expression :=
  t.items.filterMap fun
    | .literal _ => none
    | .expression e => some e

/-- The names of variables in the order in which expansion asks for them. -/
def visits (t : Template) : List Text := t.expressions.flatMap Expression.names

/-- Each element once, in the order of first occurrence. -/
def firstUses : List Text → List Text
  | [] => []
  | name :: rest => name :: (firstUses rest).filter (· ≠ name)

theorem mem_firstUses {name : Text} {names : List Text} :
    name ∈ firstUses names ↔ name ∈ names := by
  induction names with
  | nil => simp [firstUses]
  | cons first rest ih =>
    by_cases h : name = first <;> simp [firstUses, ih, h]

theorem nodup_firstUses (names : List Text) : (firstUses names).Nodup := by
  induction names with
  | nil => exact List.nodup_nil
  | cons first rest ih =>
    refine List.nodup_cons.2 ⟨?_, ih.filter _⟩
    simp

/-- Behind other names, those that are new come in. -/
theorem firstUses_append (names more : List Text) :
    firstUses (names ++ more) = firstUses names ++ (firstUses more).filter (· ∉ names) := by
  induction names with
  | nil =>
    rw [List.filter_eq_self.2 (by simp)]
    rfl
  | cons first rest ih =>
    simp only [List.cons_append, firstUses, ih, List.filter_append, List.filter_filter,
      List.mem_cons, not_or, Bool.decide_and]

theorem firstUses_append_cons {name : Text} {names : List Text} (h : name ∉ names)
    (more : List Text) :
    ∃ rest, firstUses (names ++ name :: more) = firstUses names ++ name :: rest := by
  refine ⟨((firstUses more).filter (· ≠ name)).filter (· ∉ names), ?_⟩
  rw [firstUses_append, firstUses, List.filter_cons_of_pos]
  simpa using h

/-- The names of the variables of the template, each once, in the order of first use. -/
def variableNames (t : Template) : List Text := firstUses t.visits

/-- The template as text. -/
def toText (t : Template) : Text := t.items.flatMap Item.toText

/-- The template as text, if its limits can be written. -/
def text? (t : Template) : Except Failure Text :=
  if t.items.all Item.isWritable then .ok t.toText else .error .tooManyDigits

/-- The template as it appears in messages. -/
def shown? (t : Template) : Except Failure Text := do
  return "UriTemplate(".toList ++ quoted (← t.text?) ++ [')']

/-- The same items. -/
def sameItems (t u : Template) : Bool := t.items = u.items

theorem sameItems_iff {t u : Template} : t.sameItems u = true ↔ t.items = u.items := by
  simp [sameItems]

end Template

/-- An item as text, if its limits can be written. -/
def Item.text? (i : Item) : Except Failure Text :=
  if i.isWritable then .ok i.toText else .error .tooManyDigits

/-- A variable as text, if its limit can be written. -/
def Varspec.text? (v : Varspec) : Except Failure Text :=
  if v.isWritable then .ok v.toText else .error .tooManyDigits

/-- An expression as text, if its limits can be written. -/
def Expression.text? (e : Expression) : Except Failure Text := Item.text? (.expression e)

end LinkTemplate
