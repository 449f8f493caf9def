import LinkTemplate.Template.Grammar
import LinkTemplate.Failure

/-!
# Spans of a template text

Before anything of it is read, a template text is cut at its braces into *spans*. A plain span
runs up to the next opening brace. A braced span runs from an opening brace to the next closing
one, and other opening braces in between mean nothing. An opening brace that is never closed
takes the rest of the text along.

Each span becomes one item. A braced span whose body is no expression, and a dangling one,
become literals of their whole text: they are *degraded*, and a note of it says why.
-/

namespace LinkTemplate

open Text

/-- A piece of a template text. -/
inductive Span where
  /-- Text without opening brace. -/
  | plain (text : Text)
  /-- Braces around a body without closing brace. -/
  | braced (body : Text)
  /-- An opening brace that is never closed, and the rest of the text. -/
  | dangling (rest : Text)
  deriving DecidableEq, Inhabited

/-- Why a span with a brace is not an expression. -/
inductive Reason where
  | unterminated
  | fault (f : Fault)
  deriving DecidableEq, Inhabited

/-- The wording of a reason. -/
def Reason.message : Reason → Text
  | unterminated => "unterminated".toList
  | fault f => f.message

/-- The note of an expression that is kept as a literal. -/
structure Degradation where
  /-- The literal. -/
  text : Text
  reason : Reason
  deriving DecidableEq, Inhabited

/-- The wording of a note. -/
def Degradation.message (d : Degradation) : Text :=
  "expression kept as literal: ".toList ++ quoted d.text ++ ' ' :: '(' :: d.reason.message ++ [')']

namespace Span

/-- The characters of the span. -/
def toText : Span → Text
  | plain text => text
  | braced body => '\x7b' :: body ++ ['\x7d']
  | dangling rest => '\x7b' :: rest

/-- The spans of a text, in order. -/
def scan : Text → List Span
  | [] => []
  | c :: rest =>
    if c = '\x7b' then
      match _h : cut '\x7d' rest with
      | none => [dangling rest]
      | some (body, after) => braced body :: scan after
    else plain (c :: rest.takeWhile (· ≠ '\x7b')) :: scan (rest.dropWhile (· ≠ '\x7b'))
termination_by text => text.length
decreasing_by
  · exact Nat.lt_succ_of_lt (length_cut_lt _h)
  · exact Nat.lt_succ_of_le (List.dropWhile_suffix _).length_le

/-- Scanning loses nothing: the characters of the spans are the text. -/
theorem flatMap_toText_scan (text : Text) : (scan text).flatMap toText = text := by
  fun_induction scan text with
  | case1 => rfl
  | case2 rest _ => simp [toText]
  | case3 rest body after h ih => simp [toText, ih, (cut_eq_some h).1]
  | case4 c rest _ ih =>
    rw [List.flatMap_cons, ih]
    exact congrArg (c :: ·) List.takeWhile_append_dropWhile

/-- The item that a span becomes. It has none if a limit in it cannot be read at all. -/
def item : Span → Except Failure Item
  | plain text => .ok (.literal text)
  | dangling rest => .ok (.literal (dangling rest).toText)
  | braced body =>
    match Grammar.readExpression body with
    | .ok e => .ok (.expression e)
    | .error (.malformed _) => .ok (.literal (braced body).toText)
    | .error .tooManyDigits => .error .tooManyDigits

/-- The note about a span that becomes a literal for want of an expression. -/
def degradation? : Span → Option Degradation
  | plain _ => none
  | dangling rest => some ⟨(dangling rest).toText, .unterminated⟩
  | braced body =>
    match Grammar.readExpression body with
    | .error (.malformed fault) => some ⟨(braced body).toText, .fault fault⟩
    | _ => none

/-- The notes about spans, up to the first that becomes no item. -/
def degradations : List Span → List Degradation
  | [] => []
  | span :: rest =>
    match span.item with
    | .error _ => []
    | .ok _ => span.degradation?.toList ++ degradations rest

end Span

end LinkTemplate
