import LinkTemplate.Expansion
import LinkTemplate.Proofs.Traverse
import Mathlib.Data.List.Basic

/-!
# Expansion without a separator state

Expansion writes an expression with two nested separators, each of which remembers whether it
has been used. Without any state the text of an expression is this: each variable contributes a
list of *atoms*, in order, and the atoms of all variables stand behind the first mark of the
operator with its separator between them. No atoms, no text.

**Atoms.** An undefined variable has none, and neither has an empty list or association. A
string is one atom. A composite value is one atom, its parts between commas whatever the
operator, or one atom for each item or pair if it is spread.

The two agree because an outer separator that is passed over the pieces of a value, and an inner
one that starts empty and goes on with the same text, write together what one separator writes
over the atoms: `varsText_eq_join`.

Main results: `Rules.varsText_eq_join`, `Expression.expand_eq_map_bind`.
-/

namespace LinkTemplate

open Text

/-! ## Lookups of template values -/

/-- The lookup answers with a value or with nothing, for every name. -/
def Lookup.Answers (l : Lookup) (value? : Text → Option Value) : Prop :=
  ∀ name, l.value? name = .ok (value? name)

theorem Lookup.answers_ofValues (value? : Text → Option Value) :
    (Lookup.ofValues value?).Answers value? :=
  Lookup.value?_ofValues value?

theorem Expression.bind_eq_map (e : Expression) {l : Lookup} {value? : Text → Option Value}
    (h : ∀ name ∈ e.names, l.value? name = .ok (value? name)) :
    e.bind l = .ok (e.vars.map fun v => (v, value? v.name)) := by
  refine mapM_eq_ok_map fun v hv => ?_
  rw [h v.name (List.mem_map_of_mem hv)]
  rfl

theorem Expression.bind_of_answers (e : Expression) {l : Lookup} {value? : Text → Option Value}
    (h : l.Answers value?) : e.bind l = .ok (e.vars.map fun v => (v, value? v.name)) :=
  e.bind_eq_map fun name _ => h name

/-! ## Atoms -/

/-- Where the characters that a size keeps of a text come to an end. A negative size counts from
the end of the text. -/
def sliceEnd (size : Int) (length : Nat) : Nat := (if size < 0 then length + size else size).toNat

/-- The text without what the size of the variable, if it has one, cuts off. -/
def Varspec.slice (v : Varspec) (text : Text) : Text :=
  match v.limit? with
  | some size => text.take (sliceEnd size text.length)
  | none => text

namespace Rules

/-- A string under a name. -/
def stringAtom (rules : Rules) (name text : Text) : Text :=
  if rules.named then name ++ if text = [] then rules.ifEmpty else '=' :: rules.escape text
  else rules.escape text

/-- A composite value as a whole, its parts between commas. -/
def compositeAtom (rules : Rules) (name : Text) (parts : List Text) : Text :=
  (if rules.named then name ++ ['='] else []) ++ List.intercalate [','] (parts.map rules.escape)

/-- A pair of its own, the key being the name. -/
def pairAtom (rules : Rules) (pair : Text × Text) : Text :=
  rules.escape pair.1 ++
    if rules.named ∧ pair.2 = [] then rules.ifEmpty else '=' :: rules.escape pair.2

/-- The atoms of a variable with what it is bound to. -/
def atoms (rules : Rules) (v : Varspec) : Option Value → List Text
  | none => []
  | some (.string text) => [rules.stringAtom (Percent.encode isUnreserved v.name) (v.slice text)]
  | some (.list items) =>
    if items = [] then []
    else if v.isExploded then items.map (rules.stringAtom (Percent.encode isUnreserved v.name))
    else [rules.compositeAtom (Percent.encode isUnreserved v.name) items]
  | some (.assoc pairs) =>
    if pairs = [] then []
    else if v.isExploded then pairs.map rules.pairAtom
    else [rules.compositeAtom (Percent.encode isUnreserved v.name)
      (pairs.flatMap fun pair => [pair.1, pair.2])]

/-- Atoms behind the first mark of the operator and with its separator between them. -/
def joinAtoms (rules : Rules) (atoms : List Text) : Text :=
  if atoms = [] then [] else rules.first ++ rules.sep.intercalate atoms

end Rules

/-- The atoms of an expression, variable by variable. -/
def Expression.atoms (e : Expression) (value? : Text → Option Value) : List Text :=
  e.vars.flatMap fun v => (Rules.of e.operator).atoms v (value? v.name)

/-! ## What a separator writes -/

namespace Separator

theorem join_eq_of_ne_nil (s : Separator) {pieces : List Text} (h : pieces ≠ []) :
    s.join pieces = s.next ++ s.later.intercalate pieces := by
  induction pieces generalizing s with
  | nil => exact absurd rfl h
  | cons piece rest ih =>
    cases rest with
    | nil => simp [join]
    | cons second rest =>
      rw [join, ih s.advance (List.cons_ne_nil second rest), List.intercalate_cons_cons]
      simp [advance]

theorem join_between (sep : Text) (pieces : List Text) :
    join ⟨[], sep⟩ pieces = sep.intercalate pieces := by
  cases pieces with
  | nil => rfl
  | cons piece rest =>
    rw [join_eq_of_ne_nil ⟨[], sep⟩ (List.cons_ne_nil piece rest), List.nil_append]

theorem join_append (s : Separator) {as : List Text} (h : as ≠ []) (bs : List Text) :
    s.join (as ++ bs) = s.join as ++ s.advance.join bs := by
  induction as generalizing s with
  | nil => exact absurd rfl h
  | cons a as ih =>
    cases as with
    | nil => simp [join]
    | cons b as =>
      rw [List.cons_append, join, join, ih s.advance (List.cons_ne_nil b as)]
      simp [advance]

/-- Two pieces with the separator in one piece. -/
theorem join_pair (s : Separator) {α : Type} (f g : α → Text) (xs : List α) :
    s.join (xs.map fun x => f x ++ s.later ++ g x) = s.join (xs.flatMap fun x => [f x, g x]) := by
  induction xs generalizing s with
  | nil => rfl
  | cons x xs ih =>
    have step := ih s.advance
    change s.next ++ (f x ++ s.later ++ g x) ++ s.advance.join (xs.map _) =
      s.next ++ f x ++ (s.later ++ g x ++ s.advance.join (xs.flatMap _))
    rw [← step]
    simp only [List.append_assoc]
    rfl

end Separator

/-! ## Values as atoms -/

theorem Varspec.limit_eq_slice (v : Varspec) (text : Text) : v.limit text = v.slice text := by
  unfold Varspec.limit Varspec.slice
  cases v.limit? with
  | none => rfl
  | some size =>
    show limited size text = text.take (sliceEnd size text.length)
    unfold limited sliceEnd
    split_ifs with h
    · congr 1
      omega
    · rfl

namespace Rules

variable (rules : Rules) (v : Varspec)

theorem escape_nil : rules.escape [] = [] := by
  unfold escape
  cases rules.policy <;> rfl

theorem stringText_eq_atom (text : Text) :
    rules.stringText v text =
      rules.stringAtom (Percent.encode isUnreserved v.name) (v.slice text) := by
  unfold stringText stringAtom Varspec.uriName
  rw [v.limit_eq_slice]
  by_cases h : v.slice text = []
  · simp [h, rules.escape_nil]
  · simp [h]

theorem listText_eq_atom (items : List Text) :
    rules.listText v items = rules.compositeAtom (Percent.encode isUnreserved v.name) items := by
  rw [listText, Separator.join_between]
  rfl

theorem assocText_eq_atom (pairs : List (Text × Text)) :
    rules.assocText v pairs = rules.compositeAtom (Percent.encode isUnreserved v.name)
      (pairs.flatMap fun pair => [pair.1, pair.2]) := by
  have h := Separator.join_pair ⟨[], [',']⟩ (fun pair : Text × Text => rules.escape pair.1)
    (fun pair => rules.escape pair.2) pairs
  simp only [List.append_assoc, List.cons_append, List.nil_append] at h
  rw [assocText, h, Separator.join_between, compositeAtom, List.map_flatMap]
  rfl

theorem explodedListText_eq_atoms (items : List Text) :
    rules.explodedListText v items = rules.sep.intercalate
      (items.map (rules.stringAtom (Percent.encode isUnreserved v.name))) := by
  rw [explodedListText, Separator.join_between]
  congr 1
  refine List.map_congr_left fun item _ => ?_
  simp [stringAtom, Varspec.uriName]

theorem explodedAssocText_eq_atoms (pairs : List (Text × Text)) :
    rules.explodedAssocText pairs = rules.sep.intercalate (pairs.map rules.pairAtom) := by
  rw [explodedAssocText, Separator.join_between]
  congr 1
  refine List.map_congr_left fun pair _ => ?_
  simp [pairAtom]

/-- A value that is passed over is one without atoms. -/
theorem atoms_eq_nil_iff (value : Value) :
    rules.atoms v (some value) = [] ↔ value.isAbsent = true := by
  cases value with
  | string text => simp [atoms, Value.isAbsent]
  | list items => cases items <;> cases h : v.isExploded <;> simp [atoms, Value.isAbsent, h]
  | assoc pairs => cases pairs <;> cases h : v.isExploded <;> simp [atoms, Value.isAbsent, h]

theorem valueText_eq_atoms {value : Value} (h : value.isAbsent = false) :
    rules.valueText v value = rules.sep.intercalate (rules.atoms v (some value)) := by
  cases value with
  | string text => rw [valueText, stringText_eq_atom, atoms, List.intercalate_singleton]
  | list items =>
    have hne : items ≠ [] := by simpa [Value.isAbsent] using h
    rw [valueText, atoms, if_neg hne]
    split_ifs
    · exact rules.explodedListText_eq_atoms v items
    · rw [listText_eq_atom, List.intercalate_singleton]
  | assoc pairs =>
    have hne : pairs ≠ [] := by simpa [Value.isAbsent] using h
    rw [valueText, atoms, if_neg hne]
    split_ifs
    · exact rules.explodedAssocText_eq_atoms pairs
    · rw [assocText_eq_atom, List.intercalate_singleton]

/-- **The two separators write one sequence.** Variables are written as their atoms, with the
outer separator alone. -/
theorem varsText_eq_join (s : Separator) (hs : s.later = rules.sep)
    (bound : List (Varspec × Option Value)) :
    rules.varsText s bound = s.join (bound.flatMap fun b => rules.atoms b.1 b.2) := by
  induction bound generalizing s with
  | nil => rfl
  | cons b rest ih =>
    obtain ⟨v, value?⟩ := b
    cases value? with
    | none => exact ih s hs
    | some value =>
      rw [varsText, List.flatMap_cons]
      by_cases habs : value.isAbsent = true
      · rw [if_pos habs, ih s hs, (rules.atoms_eq_nil_iff v value).2 habs, List.nil_append]
      · have hne : rules.atoms v (some value) ≠ [] := mt (rules.atoms_eq_nil_iff v value).1 habs
        -- The outer separator moves on once for the value. Written over the atoms it would have
        -- moved on once for each, but it only differs before the first piece.
        rw [if_neg habs, ih s.advance hs, Separator.join_append s hne,
          Separator.join_eq_of_ne_nil s hne, hs,
          rules.valueText_eq_atoms v (Bool.eq_false_iff.2 habs)]

theorem join_eq_joinAtoms (atoms : List Text) :
    Separator.join ⟨rules.first, rules.sep⟩ atoms = rules.joinAtoms atoms := by
  unfold joinAtoms
  split_ifs with h
  · rw [h]
    rfl
  · exact Separator.join_eq_of_ne_nil _ h

end Rules

/-! ## Expressions -/

/-- An expression is looked up and then written as atoms. -/
theorem Expression.expand_eq_map_bind (e : Expression) (l : Lookup) :
    e.expand l = (e.bind l).map fun bound => (Rules.of e.operator).joinAtoms
      (bound.flatMap fun b => (Rules.of e.operator).atoms b.1 b.2) := by
  unfold Expression.expand
  cases e.bind l with
  | error failure => rfl
  | ok bound =>
    have hvars := (Rules.of e.operator).varsText_eq_join
      ⟨(Rules.of e.operator).first, (Rules.of e.operator).sep⟩ rfl bound
    rw [Rules.join_eq_joinAtoms] at hvars
    exact congrArg Except.ok hvars

theorem Expression.expand_eq_joinAtoms (e : Expression) {l : Lookup}
    {value? : Text → Option Value} (h : ∀ name ∈ e.names, l.value? name = .ok (value? name)) :
    e.expand l = .ok ((Rules.of e.operator).joinAtoms (e.atoms value?)) := by
  rw [e.expand_eq_map_bind, e.bind_eq_map h, Except.map, List.flatMap_map]
  rfl

/-- **The text of an expression is that of its atoms**, for every lookup that answers with
values or nothing. -/
theorem expand_eq_atoms (e : Expression) {l : Lookup} {value? : Text → Option Value}
    (h : l.Answers value?) :
    e.expand l = .ok ((Rules.of e.operator).joinAtoms (e.atoms value?)) := by
  rw [e.expand_eq_map_bind, e.bind_of_answers h, Except.map, List.flatMap_map]
  rfl

/-- Values of every kind behind one `?`: a string cut to nothing, an empty list between defined
variables, an empty item and an empty value that are spread, and a map that is not. -/
theorem expand_eq_atoms_query :
    let value? : Text → Option Value := fun name => Assignment.get? name
      [(['s'], .string ['a', 'b']), (['e'], .list []), (['x'], .list [[], ['a', ' ']]),
        (['m'], .assoc [(['k'], [])]), (['p'], .assoc [(['&'], ['1']), ([], [])])]
    let e : Expression := ⟨some .formQuery, [⟨['u'], none⟩, ⟨['s'], some (.limit (-2))⟩,
      ⟨['e'], none⟩, ⟨['x'], some .explode⟩, ⟨['m'], some .explode⟩, ⟨['p'], some (.limit 1)⟩]⟩
    (Lookup.ofValues value?).Answers value? ∧
      e.expand (Lookup.ofValues value?) = .ok "?s=&x=&x=a%20&k=&p=%26,1,,".toList := by
  intro value? e
  have h := Lookup.answers_ofValues value?
  refine ⟨h, (expand_eq_atoms e h).trans ?_⟩
  decide

end LinkTemplate
