import LinkTemplate.Proofs.UriText

/-!
# Expressions in parts

Two expressions side by side are not one expression over the variables of both: each writes the
first mark of its operator. Whether this makes a difference is a matter of two texts in the rules.

**Going on** (`Rules.continued`). Behind atoms that are written already, the next ones are written
as by an operator whose first mark is the separator (`Rules.joinAtoms_append`). In front of them
there may also be nothing at all, because variables were passed over. Then the first mark is still
to come.

**Splitting.** So an operator may be split anywhere if its first mark is its separator. For any
other operator there are two variables that it may not be split between. A query is split into a
query and its continuation, unless the first part writes nothing.

Main results: `Rules.joinAtoms_append`, `Expression.expand_append_continued`.
-/

namespace LinkTemplate

/-! ## Rules -/

namespace Rules

/-- The rules of an expression that goes on behind another one. -/
def continued (rules : Rules) : Rules := { rules with first := rules.sep }

variable (rules : Rules)

/-- **Atoms behind atoms** are written as by rules that go on. -/
theorem joinAtoms_append (atoms more : List Text) :
    rules.joinAtoms (atoms ++ more) =
      if atoms = [] then rules.joinAtoms more
      else rules.joinAtoms atoms ++ rules.continued.joinAtoms more := by
  split_ifs with h
  · rw [h, List.nil_append]
  · have hjoin := Separator.join_append ⟨rules.first, rules.sep⟩ h more
    have hnext : Separator.advance ⟨rules.first, rules.sep⟩ =
        ⟨rules.continued.first, rules.continued.sep⟩ := rfl
    rwa [hnext, join_eq_joinAtoms, join_eq_joinAtoms, join_eq_joinAtoms] at hjoin

variable {rules}

theorem joinAtoms_eq_nil_iff (h : rules.first ≠ []) {atoms : List Text} :
    rules.joinAtoms atoms = [] ↔ atoms = [] := by
  unfold joinAtoms
  split_ifs with hempty
  · exact iff_of_true rfl hempty
  · exact iff_of_false (List.append_ne_nil_of_left_ne_nil h _) hempty

theorem continued_eq_self_iff : rules.continued = rules ↔ rules.first = rules.sep := by
  constructor
  · intro h
    exact (congrArg first h).symm
  · intro h
    exact congrArg (fun mark => { rules with first := mark }) h.symm

/-- Where there is a first mark, the texts alone tell how they fit together. -/
theorem joinAtoms_append_of_first_ne_nil (h : rules.first ≠ []) (atoms more : List Text) :
    rules.joinAtoms (atoms ++ more) =
      if rules.joinAtoms atoms = [] then rules.joinAtoms more
      else rules.joinAtoms atoms ++ rules.continued.joinAtoms more := by
  rw [joinAtoms_append]
  simp only [joinAtoms_eq_nil_iff h]

theorem first_eq_sep_of_joinAtoms_pair {atom : Text}
    (h : rules.joinAtoms [atom, atom] = rules.joinAtoms [atom] ++ rules.joinAtoms [atom]) :
    rules.first = rules.sep := by
  have hpair := rules.joinAtoms_append [atom] [atom]
  rw [if_neg (List.cons_ne_nil _ _), List.singleton_append, h, List.append_cancel_left_eq] at hpair
  exact List.append_cancel_right hpair

theorem sep_ne_nil (operator : Option Operator) : (Rules.of operator).sep ≠ [] := by
  cases operator with
  | none => decide
  | some op => cases op <;> decide

theorem first_eq_sep_iff (operator : Option Operator) :
    (Rules.of operator).first = (Rules.of operator).sep ↔
      operator ∈ [some .label, some .pathSegment, some .pathParameter, some .formContinuation] := by
  cases operator with
  | none => decide
  | some op => cases op <;> decide

end Rules

/-! ## Expressions -/

namespace Expression

/-- Variables are looked up one after the other, so the first failure is that of the first part if
it has one. -/
theorem bind_append (operator : Option Operator) (vars more : List Varspec) (l : Lookup) :
    bind ⟨operator, vars ++ more⟩ l = do
      return (← bind ⟨operator, vars⟩ l) ++ (← bind ⟨operator, more⟩ l) :=
  List.mapM_append

/-- **An expression goes on as another one** if this has the rules of going on. It begins anew if
nothing has been written. -/
theorem expand_append_continued {operator next : Option Operator}
    (hnext : Rules.of next = (Rules.of operator).continued)
    (hfirst : (Rules.of operator).first ≠ []) (vars more : List Varspec) (l : Lookup) :
    expand ⟨operator, vars ++ more⟩ l = do
      let before ← expand ⟨operator, vars⟩ l
      if before = [] then expand ⟨operator, more⟩ l
      else return before ++ (← expand ⟨next, more⟩ l) := by
  have hlookup : bind ⟨next, more⟩ l = bind ⟨operator, more⟩ l := rfl
  rw [expand_eq_map_bind, expand_eq_map_bind, expand_eq_map_bind, expand_eq_map_bind, hlookup,
    hnext, bind_append]
  cases bind ⟨operator, vars⟩ l with
  | error failure => rfl
  | ok bound =>
    cases bind ⟨operator, more⟩ l with
    | error failure => exact (ite_self (Except.error failure)).symm
    | ok others =>
      have hatoms := Rules.joinAtoms_append_of_first_ne_nil hfirst
        (bound.flatMap fun b => (Rules.of operator).atoms b.1 b.2)
        (others.flatMap fun b => (Rules.of operator).atoms b.1 b.2)
      rw [← List.flatMap_append] at hatoms
      exact (congrArg Except.ok hatoms).trans (apply_ite Except.ok _ _ _)

theorem expand_append_of_first_eq_sep {operator : Option Operator}
    (heq : (Rules.of operator).first = (Rules.of operator).sep) (vars more : List Varspec)
    (l : Lookup) :
    expand ⟨operator, vars ++ more⟩ l = do
      return (← expand ⟨operator, vars⟩ l) ++ (← expand ⟨operator, more⟩ l) := by
  have hfirst : (Rules.of operator).first ≠ [] := heq ▸ Rules.sep_ne_nil operator
  rw [expand_append_continued (Rules.continued_eq_self_iff.2 heq).symm hfirst]
  cases expand ⟨operator, vars⟩ l with
  | error failure => rfl
  | ok before =>
    by_cases hempty : before = []
    · subst hempty
      show expand ⟨operator, more⟩ l = (do return [] ++ (← expand ⟨operator, more⟩ l))
      simp
    · exact if_neg hempty

/-- Between two variables with empty strings it shows whether the first mark is the separator. -/
theorem first_eq_sep_of_expand_append {operator : Option Operator}
    (h : ∀ vars more l, expand ⟨operator, vars ++ more⟩ l = do
      return (← expand ⟨operator, vars⟩ l) ++ (← expand ⟨operator, more⟩ l)) :
    (Rules.of operator).first = (Rules.of operator).sep := by
  let v : Varspec := ⟨[], none⟩
  let blank : Text → Option Value := fun _ => some (.string [])
  have hanswers := Lookup.answers_ofValues blank
  have hsplit := h [v] [v] (.ofValues blank)
  rw [expand_eq_atoms _ hanswers, expand_eq_atoms _ hanswers] at hsplit
  exact Rules.first_eq_sep_of_joinAtoms_pair (Except.ok.inj hsplit)

end Expression

/-- **Which expressions may be split.** Under every lookup, an expression over the variables of two
lists is one expression behind the other exactly if its operator is `.`, `/`, `;` or `&`: the texts
follow one after the other, and a failure is that of the first or else of the second. A query is a
query behind which its continuation stands, or a query over the second list alone if the first one
leaves no text. Under a lookup that answers with values or nothing, none of them fails. -/
theorem expand_of_parts :
    (∀ operator : Option Operator,
      (∀ vars more l, Expression.expand ⟨operator, vars ++ more⟩ l = do
        return (← Expression.expand ⟨operator, vars⟩ l) ++
          (← Expression.expand ⟨operator, more⟩ l)) ↔
      operator ∈ [some .label, some .pathSegment, some .pathParameter, some .formContinuation]) ∧
    (∀ vars more l, Expression.expand ⟨some .formQuery, vars ++ more⟩ l = do
      let before ← Expression.expand ⟨some .formQuery, vars⟩ l
      if before = [] then Expression.expand ⟨some .formQuery, more⟩ l
      else return before ++ (← Expression.expand ⟨some .formContinuation, more⟩ l)) ∧
    ∀ (l : Lookup) (value? : Text → Option Value), l.Answers value? →
      ∀ e : Expression, ∃ text, e.expand l = .ok text := by
  refine ⟨fun operator => ⟨fun h => ?_, fun hmem vars more l => ?_⟩, ?_,
    fun l value? h e => e.exists_expand h⟩
  · exact (Rules.first_eq_sep_iff operator).1 (Expression.first_eq_sep_of_expand_append h)
  · have heq := (Rules.first_eq_sep_iff operator).2 hmem
    exact Expression.expand_append_of_first_eq_sep heq vars more l
  · intro vars more l
    exact Expression.expand_append_continued rfl (by decide) vars more l

/-- A query that is split twice, first behind variables that are passed over and then between an
item that is spread and a pair, and path parameters that are split at the same places. -/
theorem expand_of_parts_skipped :
    let value? : Text → Option Value := fun name => Assignment.get? name
      [(['e'], .list []), (['x'], .list [[], ['a']]), (['m'], .assoc [(['k'], [])])]
    let l := Lookup.ofValues value?
    let absent : List Varspec := [⟨['u'], none⟩, ⟨['e'], some .explode⟩]
    let items : List Varspec := [⟨['x'], some .explode⟩]
    let pairs : List Varspec := [⟨['e'], none⟩, ⟨['m'], some .explode⟩]
    Expression.expand ⟨some .formQuery, absent ++ (items ++ pairs)⟩ l =
        .ok ("?x=&x=a".toList ++ "&k=".toList) ∧
      Expression.expand ⟨some .pathParameter, absent ++ (items ++ pairs)⟩ l =
        .ok ([] ++ (";x;x=a".toList ++ ";k".toList)) ∧
      l.Answers value? ∧ ∃ text, Expression.expand ⟨none, absent ++ pairs⟩ l = .ok text := by
  intro value? l absent items pairs
  obtain ⟨hsplit, hquery, hexists⟩ := expand_of_parts
  have hanswers := Lookup.answers_ofValues value?
  have hparameter := (hsplit (some .pathParameter)).2 (by decide)
  have hnothing : Expression.expand ⟨some .formQuery, absent⟩ l = .ok [] := by decide
  have hfirst : Expression.expand ⟨some .formQuery, items⟩ l = .ok "?x=&x=a".toList := by decide
  have hsecond : Expression.expand ⟨some .formContinuation, pairs⟩ l = .ok "&k=".toList := by
    decide
  refine ⟨?_, ?_, hanswers, hexists l value? hanswers _⟩
  · rw [hquery, hnothing]
    show Expression.expand ⟨some .formQuery, items ++ pairs⟩ l = _
    rw [hquery, hfirst]
    show (do return "?x=&x=a".toList ++ (← Expression.expand ⟨some .formContinuation, pairs⟩ l)) = _
    rw [hsecond]
    rfl
  · rw [hparameter, hparameter]
    decide

end LinkTemplate
