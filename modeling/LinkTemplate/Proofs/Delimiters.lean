import LinkTemplate.Proofs.Atoms
import LinkTemplate.Proofs.Escaped
import LinkTemplate.Proofs.Written

/-!
# The delimiters of an expansion

Reserved characters carry the structure of a URI. Unless an operator keeps them in its values,
those of an expansion all come from the rules of the operator, and which of them are written
depends on little: on the *outline* of each value, and on whether the value is spread.

**Outlines.** An outline says whether a variable is defined and of which kind its value is, how many
parts it has, and where the mark of an empty one may take the place of a `=`. No character of a
value, a key or a name enters it.

**Marks.** Atoms without the text of names, keys and values are their marks. Written as an
expression they have the delimiters of the expansion: `Expression.filter_expand`.

A limit leaves something of every string that is not empty. So the expression has to be proper:
with a size of zero a limit would turn one outline into another.
-/

namespace LinkTemplate

open Text

/-! ## Outlines -/

/-- What the delimiters of an expansion show of a value. -/
inductive Outline where
  | undefined
  /-- A string, which may be empty. -/
  | string (blank : Bool)
  /-- The items of a list, each of which may be empty. -/
  | list (blanks : List Bool)
  /-- The pairs of an association, in each of which the value may be empty. -/
  | assoc (blanks : List Bool)
  deriving DecidableEq

def Outline.of : Option Value → Outline
  | none => undefined
  | some (.string text) => string text.isEmpty
  | some (.list items) => list (items.map List.isEmpty)
  | some (.assoc pairs) => assoc (pairs.map fun pair => pair.2.isEmpty)

namespace Rules

/-! ## Marks -/

/-- What stands behind a name. -/
def mark (rules : Rules) (blank : Bool) : Text := if blank then rules.ifEmpty else ['=']

def stringMarks (rules : Rules) (blank : Bool) : Text :=
  if rules.named then rules.mark blank else []

def pairMarks (rules : Rules) (blank : Bool) : Text :=
  if rules.named then rules.mark blank else ['=']

def compositeMarks (rules : Rules) (count : Nat) : Text :=
  (if rules.named then ['='] else []) ++ List.intercalate [','] (List.replicate count [])

/-- The atoms of a variable without their texts. -/
def marks (rules : Rules) (exploded : Bool) : Outline → List Text
  | .undefined => []
  | .string blank => [rules.stringMarks blank]
  | .list blanks =>
    if blanks = [] then []
    else if exploded then blanks.map rules.stringMarks
    else [rules.compositeMarks blanks.length]
  | .assoc blanks =>
    if blanks = [] then []
    else if exploded then blanks.map rules.pairMarks
    else [rules.compositeMarks (2 * blanks.length)]

/-- The delimiters of an expression, of whose variables it is known whether they are spread and of
which outline their values are. -/
def delimiters (rules : Rules) (vars : List (Bool × Outline)) : Text :=
  (rules.joinAtoms (vars.flatMap fun var => rules.marks var.1 var.2)).filter isReserved

end Rules

/-! ## Delimiters of pieces -/

theorem Varspec.IsProper.isEmpty_slice {v : Varspec} (hv : v.IsProper) (text : Text) :
    (v.slice text).isEmpty = text.isEmpty := by
  unfold Varspec.slice Varspec.limit?
  split
  · next size hsize =>
    split at hsize
    · next hmodifier =>
      obtain ⟨hpos, -⟩ := hv.size _ hmodifier
      cases hsize
      have hend : sliceEnd size text.length ≠ 0 := by
        unfold sliceEnd
        omega
      -- The end lies behind the first character, so only an empty text has nothing before it.
      rw [Bool.eq_iff_iff, List.isEmpty_iff, List.isEmpty_iff, List.take_eq_nil_iff]
      exact or_iff_right hend
    · cases hsize
  · rfl

theorem filter_intercalate (p : Char → Bool) (sep : Text) (pieces : List Text) :
    (sep.intercalate pieces).filter p =
      (sep.filter p).intercalate (pieces.map (List.filter p)) := by
  refine map_intercalate (f := List.filter p) rfl (fun before after => ?_) pieces
  rw [List.filter_append, List.filter_append]

theorem Percent.Encoded.filter_isReserved {text : Text} (h : Percent.Encoded isUnreserved text) :
    text.filter isReserved = [] :=
  List.filter_eq_nil_iff.2 fun _ hmem hreserved => h.not_mem_of_isReserved hreserved hmem

namespace Rules

theorem filter_joinAtoms (rules : Rules) (p : Char → Bool) (atoms : List Text) :
    (rules.joinAtoms atoms).filter p = (rules.joinAtoms (atoms.map (List.filter p))).filter p := by
  by_cases h : atoms = []
  · rw [h, List.map_nil]
  · have hmap : atoms.map (List.filter p) ≠ [] := by simpa using h
    -- On the right the atoms are filtered by themselves and again as parts of the whole.
    have htwice : List.filter p ∘ List.filter p = List.filter p := by
      funext atom
      simp
    rw [joinAtoms, joinAtoms, if_neg h, if_neg hmap, List.filter_append, List.filter_append,
      filter_intercalate, filter_intercalate, List.map_map, htwice]

namespace Escapes

variable {rules : Rules} (h : rules.Escapes)
include h

theorem filter_escape (text : Text) : (rules.escape text).filter isReserved = [] :=
  (h.encoded_escape text).filter_isReserved

theorem filter_behind_name (text : Text) :
    (if text = [] then rules.ifEmpty else '=' :: rules.escape text).filter isReserved =
      rules.mark text.isEmpty := by
  by_cases hempty : text = []
  · rw [if_pos hempty, mark, if_pos (List.isEmpty_iff.2 hempty)]
    rcases h.ifEmpty with hmark | hmark
    · rw [hmark, List.filter_nil]
    · rw [hmark]
      rfl
  · rw [if_neg hempty, mark, if_neg (mt List.isEmpty_iff.1 hempty),
      List.filter_cons_of_pos (by decide), h.filter_escape]

theorem filter_stringAtom (name text : Text) :
    (rules.stringAtom (Percent.encode isUnreserved name) text).filter isReserved =
      rules.stringMarks text.isEmpty := by
  unfold stringAtom stringMarks
  split
  · rw [List.filter_append, (Percent.encoded_encode name).filter_isReserved, List.nil_append,
      h.filter_behind_name]
  · exact h.filter_escape text

theorem filter_pairAtom (pair : Text × Text) :
    (rules.pairAtom pair).filter isReserved = rules.pairMarks pair.2.isEmpty := by
  unfold pairAtom pairMarks
  rw [List.filter_append, h.filter_escape, List.nil_append]
  by_cases hnamed : rules.named = true
  · simp only [hnamed, true_and, if_true]
    exact h.filter_behind_name pair.2
  · rw [if_neg fun hand => hnamed hand.1, if_neg hnamed, List.filter_cons_of_pos (by decide),
      h.filter_escape]

theorem filter_compositeAtom (name : Text) (parts : List Text) :
    (rules.compositeAtom (Percent.encode isUnreserved name) parts).filter isReserved =
      rules.compositeMarks parts.length := by
  have hparts : (parts.map rules.escape).map (List.filter isReserved) =
      List.replicate parts.length [] := by
    rw [List.map_map, List.map_eq_replicate_iff]
    exact fun part _ => h.filter_escape part
  unfold compositeAtom compositeMarks
  rw [List.filter_append, filter_intercalate, hparts]
  congr 1
  split
  · rw [List.filter_append, (Percent.encoded_encode name).filter_isReserved]
    rfl
  · rfl

/-- **The delimiters of atoms are their marks.** -/
theorem map_filter_atoms {v : Varspec} (hv : v.IsProper) (value? : Option Value) :
    (rules.atoms v value?).map (List.filter isReserved) =
      rules.marks v.isExploded (Outline.of value?) := by
  match value? with
  | none => rfl
  | some (.string text) =>
    rw [atoms, Outline.of, marks, List.map_singleton, h.filter_stringAtom, hv.isEmpty_slice]
  | some (.list items) =>
    rw [atoms, Outline.of, marks]
    by_cases hempty : items = []
    · rw [hempty]
      rfl
    · have hblanks : items.map List.isEmpty ≠ [] := by simpa using hempty
      rw [if_neg hempty, if_neg hblanks]
      split
      · rw [List.map_map, List.map_map]
        exact List.map_congr_left fun item _ => h.filter_stringAtom v.name item
      · rw [List.map_singleton, h.filter_compositeAtom, List.length_map]
  | some (.assoc pairs) =>
    rw [atoms, Outline.of, marks]
    by_cases hempty : pairs = []
    · rw [hempty]
      rfl
    · have hblanks : (pairs.map fun pair => pair.2.isEmpty) ≠ [] := by simpa using hempty
      have hlength : (pairs.flatMap fun pair => [pair.1, pair.2]).length = 2 * pairs.length := by
        simp [List.length_flatMap, Nat.mul_comm]
      rw [if_neg hempty, if_neg hblanks]
      split
      · rw [List.map_map, List.map_map]
        exact List.map_congr_left fun pair _ => h.filter_pairAtom pair
      · rw [List.map_singleton, h.filter_compositeAtom, hlength, List.length_map]

end Escapes

end Rules

/-! ## Expressions -/

/-- **The delimiters of an expansion are those of its marks.** -/
theorem Expression.filter_expand {e : Expression} (he : e.IsProper)
    (hrules : (Rules.of e.operator).Escapes) {l : Lookup} {value? : Text → Option Value}
    (h : ∀ name ∈ e.names, l.value? name = .ok (value? name)) :
    ∃ text, e.expand l = .ok text ∧ text.filter isReserved =
      (Rules.of e.operator).delimiters
        (e.vars.map fun v => (v.isExploded, Outline.of (value? v.name))) := by
  have hatoms : (e.atoms value?).map (List.filter isReserved) =
      e.vars.flatMap fun v =>
        (Rules.of e.operator).marks v.isExploded (Outline.of (value? v.name)) := by
    rw [Expression.atoms, List.map_flatMap]
    exact List.flatMap_congr fun v hv => hrules.map_filter_atoms (he.vars v hv) (value? v.name)
  refine ⟨_, e.expand_eq_joinAtoms h, ?_⟩
  rw [Rules.filter_joinAtoms, hatoms, Rules.delimiters, List.flatMap_map]

/-- **No character of a value, a key or a name is a delimiter.** Where two lookups have values of
the same outline for the names of an expression that was read, its two expansions have the same
delimiters. They are those of the marks, into which no text of a name or a value enters. -/
theorem delimiters_of_outlines {body : Text} {e : Expression}
    (he : Grammar.readExpression body = .ok e) (hreserved : e.operator ≠ some .reserved)
    (hfragment : e.operator ≠ some .fragment) {l m : Lookup} {x y : Text → Option Value}
    (hl : ∀ name ∈ e.names, l.value? name = .ok (x name))
    (hm : ∀ name ∈ e.names, m.value? name = .ok (y name))
    (houtline : ∀ name ∈ e.names, Outline.of (x name) = Outline.of (y name)) :
    ∃ s t, e.expand l = .ok s ∧ e.expand m = .ok t ∧
      s.filter isReserved = t.filter isReserved ∧
      s.filter isReserved = (Rules.of e.operator).delimiters
        (e.vars.map fun v => (v.isExploded, Outline.of (x v.name))) := by
  have hproper := (Grammar.readExpression_eq_ok_iff.1 he).isProper
  have hrules := Rules.escapes_of hreserved hfragment
  obtain ⟨s, hs, hdelimiters⟩ := Expression.filter_expand hproper hrules hl
  obtain ⟨t, ht, hdelimiters'⟩ := Expression.filter_expand hproper hrules hm
  have hsame : (e.vars.map fun v => (v.isExploded, Outline.of (x v.name))) =
      e.vars.map fun v => (v.isExploded, Outline.of (y v.name)) := by
    refine List.map_congr_left fun v hv => ?_
    rw [houtline v.name (List.mem_map_of_mem hv)]
  refine ⟨s, t, hs, ht, ?_, hdelimiters⟩
  rw [hdelimiters, hsame, hdelimiters']

/-- Values full of delimiters beside values without any: a string, a spread list with an empty
item, a string that is cut, and a spread association with an empty value. -/
theorem delimiters_of_outlines_query :
    let x : Text → Option Value := fun name => Assignment.get? name
      [(['a'], .string "k=v&".toList), (['b'], .list [[], ['/']]), (['c'], .string "?#x".toList),
        (['d'], .assoc [(['='], []), (['&'], ['1'])])]
    let y : Text → Option Value := fun name => Assignment.get? name
      [(['a'], .string ['z']), (['b'], .list [[], ['é']]), (['c'], .string ['%']),
        (['d'], .assoc [(['p'], []), (['q'], ['+'])])]
    let e : Expression := ⟨some .formQuery, [⟨['a'], none⟩, ⟨['b'], some .explode⟩,
      ⟨['c'], some (.limit 2)⟩, ⟨['d'], some .explode⟩, ⟨['u'], none⟩]⟩
    Grammar.readExpression "?a,b*,c:2,d*,u".toList = .ok e ∧
      (∀ name ∈ e.names, Outline.of (x name) = Outline.of (y name)) ∧
      ∃ s t, e.expand (.ofValues x) = .ok s ∧ e.expand (.ofValues y) = .ok t ∧
        s.filter isReserved = t.filter isReserved ∧
        s.filter isReserved = "?=&=&=&=&=&=".toList := by
  intro x y e
  have he : Grammar.readExpression "?a,b*,c:2,d*,u".toList = .ok e := by decide
  have houtline : ∀ name ∈ e.names, Outline.of (x name) = Outline.of (y name) := by decide
  obtain ⟨s, t, hs, ht, hsame, hmarks⟩ := delimiters_of_outlines he (by decide) (by decide)
    (fun name _ => Lookup.value?_ofValues x name) (fun name _ => Lookup.value?_ofValues y name)
    houtline
  refine ⟨he, houtline, s, t, hs, ht, hsame, hmarks.trans ?_⟩
  decide

end LinkTemplate
