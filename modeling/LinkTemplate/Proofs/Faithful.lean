import LinkTemplate.Proofs.Atoms
import LinkTemplate.Proofs.Escaped

/-!
# Expansion keeps values apart

An expression with one variable writes two values of one kind differently, unless they are the
same value. The text can be taken apart again, because escaped text holds no reserved character.

**Strings.** The value is what stands behind the name and `=`. An empty one may lack the `=`.

**Composite values.** Their parts stand between commas, so the text is cut at the commas.

**Spread values.** Each item or pair is an atom of its own. The atoms are cut at the separator of
the operator, and each of them at its `=`. This is where a label fails. Its separator is `.`,
which is not escaped in a value.

Main results: `Rules.joinAtoms_map_inj`, `Rules.joinAtoms_atoms_inj`.
-/

namespace LinkTemplate

open Text

/-- Two values of one kind that are both written. -/
inductive Value.SameKind : Value → Value → Prop
  | string (a b : Text) : SameKind (.string a) (.string b)
  | list {a b : List Text} : a ≠ [] → b ≠ [] → SameKind (.list a) (.list b)
  | assoc {a b : List (Text × Text)} : a ≠ [] → b ≠ [] → SameKind (.assoc a) (.assoc b)

/-! ## Taking texts apart -/

/-- A text ends where a mark that it does not hold begins what follows, if anything follows. -/
theorem append_inj_of_head {c : Char} {a b s t : Text} (ha : c ∉ a) (hb : c ∉ b)
    (hs : ∀ d ∈ s.head?, d = c) (ht : ∀ d ∈ t.head?, d = c) (h : a ++ s = b ++ t) :
    a = b ∧ s = t := by
  rcases List.append_eq_append_iff.1 h with ⟨more, rfl, rfl⟩ | ⟨more, rfl, rfl⟩
  · cases more with
    | nil => exact ⟨(List.append_nil a).symm, rfl⟩
    | cons d more =>
      obtain rfl : d = c := hs d rfl
      exact absurd (List.mem_append_right a List.mem_cons_self) hb
  · cases more with
    | nil => exact ⟨List.append_nil b, rfl⟩
    | cons d more =>
      obtain rfl : d = c := ht d rfl
      exact absurd (List.mem_append_right b List.mem_cons_self) ha

theorem flatMap_pair_injective {α : Type} :
    Function.Injective fun pairs : List (α × α) => pairs.flatMap fun pair => [pair.1, pair.2] := by
  intro xs
  induction xs with
  | nil =>
    rintro (_ | ⟨y, ys⟩) h
    · rfl
    · cases h
  | cons x xs ih =>
    rintro (_ | ⟨y, ys⟩) h
    · cases h
    · obtain ⟨hfst, hrest⟩ := List.cons.inj h
      obtain ⟨hsnd, hrest⟩ := List.cons.inj hrest
      rw [Prod.ext hfst hsnd, ih hrest]

namespace Rules

/-- Atoms are separated by a character that none of them holds. -/
structure SeparatesBy (rules : Rules) (c : Char) : Prop where
  sep : rules.sep = [c]
  isReserved : isReserved c = true
  ne_equals : c ≠ '='

namespace Escapes

variable {rules : Rules} (h : rules.Escapes)
include h

/-! ## Atoms -/

theorem head_behind_name (p : Prop) [Decidable p] (text : Text) :
    ∀ d ∈ (if p then rules.ifEmpty else '=' :: rules.escape text).head?, d = '=' := by
  split_ifs
  · rcases h.ifEmpty with hempty | hempty
    · simp [hempty]
    · simp [hempty]
  · simp

theorem behind_name_injective :
    Function.Injective fun text =>
      if text = [] then rules.ifEmpty else '=' :: rules.escape text := by
  -- The mark of an empty value is shorter than what stands there for any other one.
  have hmixed {text : Text} (hne : text ≠ []) : rules.ifEmpty ≠ '=' :: rules.escape text := by
    intro heq
    rcases h.ifEmpty with hempty | hempty
    · rw [hempty] at heq
      cases heq
    · rw [hempty] at heq
      have hnil : rules.escape text = rules.escape [] := by
        rw [← (List.cons.inj heq).2, rules.escape_nil]
      exact hne (h.escape_injective hnil)
  intro x y hxy
  dsimp only at hxy
  split_ifs at hxy with hx hy hy
  · rw [hx, hy]
  · exact absurd hxy (hmixed hy)
  · exact absurd hxy.symm (hmixed hx)
  · exact h.escape_injective (List.cons.inj hxy).2

theorem stringAtom_injective (name : Text) : Function.Injective (rules.stringAtom name) := by
  intro x y hxy
  unfold stringAtom at hxy
  by_cases hnamed : rules.named = true
  · rw [if_pos hnamed, if_pos hnamed] at hxy
    exact h.behind_name_injective (List.append_cancel_left hxy)
  · rw [if_neg hnamed, if_neg hnamed] at hxy
    exact h.escape_injective hxy

theorem pairAtom_injective : Function.Injective rules.pairAtom := by
  rintro ⟨k, x⟩ ⟨k', y⟩ hxy
  have hequals (text : Text) : '=' ∉ rules.escape text :=
    (h.encoded_escape text).not_mem_of_isReserved (by decide)
  obtain ⟨hkey, hvalue⟩ := append_inj_of_head (hequals k) (hequals k')
    (h.head_behind_name _ x) (h.head_behind_name _ y) hxy
  rw [h.escape_injective hkey]
  by_cases hnamed : rules.named = true
  · simp only [hnamed, true_and] at hvalue
    rw [h.behind_name_injective hvalue]
  · rw [if_neg fun hand => hnamed hand.1, if_neg fun hand => hnamed hand.1] at hvalue
    rw [h.escape_injective (List.cons.inj hvalue).2]

theorem compositeAtom_inj {name : Text} {xs ys : List Text} (hx : xs ≠ []) (hy : ys ≠ [])
    (hxy : rules.compositeAtom name xs = rules.compositeAtom name ys) : xs = ys := by
  have hfields {zs : List Text} (hz : zs ≠ []) :
      fields ',' (List.intercalate [','] (zs.map rules.escape)) = zs.map rules.escape := by
    refine fields_intercalate (fun piece hpiece => ?_) (by simpa using hz)
    obtain ⟨z, -, rfl⟩ := List.mem_map.1 hpiece
    exact (h.encoded_escape z).not_mem_of_isReserved (by decide)
  unfold compositeAtom at hxy
  have hmap := congrArg (fields ',') (List.append_cancel_left hxy)
  rw [hfields hx, hfields hy] at hmap
  exact List.map_injective_iff.2 h.escape_injective hmap

theorem not_mem_behind_name {c : Char} (hc : isReserved c = true) (hne : c ≠ '=') (p : Prop)
    [Decidable p] (text : Text) :
    c ∉ if p then rules.ifEmpty else '=' :: rules.escape text := by
  split_ifs
  · rcases h.ifEmpty with hempty | hempty
    · simp [hempty]
    · simp [hempty, hne]
  · exact List.not_mem_cons_of_ne_of_not_mem hne
      ((h.encoded_escape text).not_mem_of_isReserved hc)

theorem not_mem_stringAtom {c : Char} (hc : isReserved c = true) (hne : c ≠ '=')
    (name text : Text) : c ∉ rules.stringAtom (Percent.encode isUnreserved name) text := by
  unfold stringAtom
  split
  · rw [List.mem_append]
    exact not_or.2 ⟨(Percent.encoded_encode name).not_mem_of_isReserved hc,
      h.not_mem_behind_name hc hne _ text⟩
  · exact (h.encoded_escape text).not_mem_of_isReserved hc

theorem not_mem_pairAtom {c : Char} (hc : isReserved c = true) (hne : c ≠ '=')
    (pair : Text × Text) : c ∉ rules.pairAtom pair := by
  unfold pairAtom
  rw [List.mem_append]
  exact not_or.2 ⟨(h.encoded_escape pair.1).not_mem_of_isReserved hc,
    h.not_mem_behind_name hc hne _ pair.2⟩

end Escapes

/-! ## Expressions with one variable -/

variable {rules : Rules}

theorem joinAtoms_singleton (atom : Text) : rules.joinAtoms [atom] = rules.first ++ atom := by
  rw [joinAtoms, if_neg (List.cons_ne_nil atom []), List.intercalate_singleton]

/-- **Atoms are cut at the separator**, and each of them gives back what it was made of. -/
theorem joinAtoms_map_inj {c : Char} (hsep : rules.SeparatesBy c) {α : Type} {f : α → Text}
    (hf : Function.Injective f) (hmem : ∀ x, c ∉ f x) {xs ys : List α} (hx : xs ≠ [])
    (hy : ys ≠ []) (h : rules.joinAtoms (xs.map f) = rules.joinAtoms (ys.map f)) : xs = ys := by
  have hfields {zs : List α} (hz : zs ≠ []) :
      fields c (rules.sep.intercalate (zs.map f)) = zs.map f := by
    rw [hsep.sep]
    refine fields_intercalate (fun atom hatom => ?_) (by simpa using hz)
    obtain ⟨z, -, rfl⟩ := List.mem_map.1 hatom
    exact hmem z
  rw [joinAtoms, joinAtoms, if_neg (by simpa using hx), if_neg (by simpa using hy)] at h
  have hmap := congrArg (fields c) (List.append_cancel_left h)
  rw [hfields hx, hfields hy] at hmap
  exact List.map_injective_iff.2 hf hmap

theorem joinAtoms_atoms_inj (h : rules.Escapes) {v : Varspec} (hlimit : v.limit? = none)
    (hspread : v.isExploded = true → ∃ c, rules.SeparatesBy c) {a b : Value}
    (hkind : a.SameKind b)
    (hatoms : rules.joinAtoms (rules.atoms v (some a)) = rules.joinAtoms (rules.atoms v (some b))) :
    a = b := by
  cases hkind with
  | string x y =>
    rw [atoms, atoms, joinAtoms_singleton, joinAtoms_singleton] at hatoms
    have hslice := h.stringAtom_injective _ (List.append_cancel_left hatoms)
    rw [Varspec.slice, Varspec.slice, hlimit] at hslice
    exact congrArg Value.string hslice
  | @list xs ys hx hy =>
    rw [atoms, atoms, if_neg hx, if_neg hy] at hatoms
    by_cases hexploded : v.isExploded = true
    · obtain ⟨c, hc⟩ := hspread hexploded
      rw [if_pos hexploded, if_pos hexploded] at hatoms
      rw [joinAtoms_map_inj hc (h.stringAtom_injective _)
        (h.not_mem_stringAtom hc.isReserved hc.ne_equals v.name) hx hy hatoms]
    · rw [if_neg hexploded, if_neg hexploded, joinAtoms_singleton, joinAtoms_singleton] at hatoms
      rw [h.compositeAtom_inj hx hy (List.append_cancel_left hatoms)]
  | @assoc xs ys hx hy =>
    rw [atoms, atoms, if_neg hx, if_neg hy] at hatoms
    by_cases hexploded : v.isExploded = true
    · obtain ⟨c, hc⟩ := hspread hexploded
      rw [if_pos hexploded, if_pos hexploded] at hatoms
      rw [joinAtoms_map_inj hc h.pairAtom_injective
        (h.not_mem_pairAtom hc.isReserved hc.ne_equals) hx hy hatoms]
    · rw [if_neg hexploded, if_neg hexploded, joinAtoms_singleton, joinAtoms_singleton] at hatoms
      have hne {pairs : List (Text × Text)} (hp : pairs ≠ []) :
          (pairs.flatMap fun pair => [pair.1, pair.2]) ≠ [] := fun hnil =>
        hp (flatMap_pair_injective hnil)
      have hparts := h.compositeAtom_inj (hne hx) (hne hy) (List.append_cancel_left hatoms)
      rw [flatMap_pair_injective hparts]

end Rules

/-- The operators that escape values, with the modifiers under which the parts of a value can be
told apart. -/
def KeepsApart (operator : Option Operator) (modifier : Option Modifier) : Prop :=
  operator ∈ [none, some .pathSegment, some .pathParameter, some .formQuery,
      some .formContinuation] ∧ modifier ∈ [none, some .explode] ∨
    operator = some .label ∧ modifier = none

namespace KeepsApart

variable {operator : Option Operator} {modifier : Option Modifier}

theorem escapes (h : KeepsApart operator modifier) : (Rules.of operator).Escapes := by
  refine Rules.escapes_of ?_ ?_
  · rintro rfl
    simp [KeepsApart] at h
  · rintro rfl
    simp [KeepsApart] at h

theorem limit?_eq_none {v : Varspec} (h : KeepsApart operator v.modifier) : v.limit? = none := by
  have hmodifier : v.modifier ∈ [none, some .explode] := by
    rcases h with ⟨-, hmodifier⟩ | ⟨-, hnone⟩
    · exact hmodifier
    · exact hnone ▸ List.mem_cons_self
  unfold Varspec.limit?
  split
  · next size hsize =>
    rw [hsize] at hmodifier
    simp at hmodifier
  · rfl

/-- Where values may be spread, the separator is a delimiter. -/
theorem separatesBy (h : KeepsApart operator (some .explode)) :
    ∃ c, (Rules.of operator).SeparatesBy c := by
  rcases h with ⟨hoperator, -⟩ | ⟨-, hnone⟩
  · simp only [List.mem_cons, List.not_mem_nil, or_false] at hoperator
    rcases hoperator with rfl | rfl | rfl | rfl | rfl
    · exact ⟨',', rfl, by decide, by decide⟩
    · exact ⟨'/', rfl, by decide, by decide⟩
    · exact ⟨';', rfl, by decide, by decide⟩
    · exact ⟨'&', rfl, by decide, by decide⟩
    · exact ⟨'&', rfl, by decide, by decide⟩
  · cases hnone

end KeepsApart

theorem Expression.expand_singleton (operator : Option Operator) (v : Varspec) {l : Lookup}
    {value? : Option Value} (h : l.value? v.name = .ok value?) :
    Expression.expand ⟨operator, [v]⟩ l =
      .ok ((Rules.of operator).joinAtoms ((Rules.of operator).atoms v value?)) := by
  have hname : ∀ name ∈ Expression.names ⟨operator, [v]⟩, l.value? name = .ok value? := by
    intro name hname
    obtain rfl := List.mem_singleton.1 hname
    exact h
  rw [Expression.expand_eq_joinAtoms _ hname, Expression.atoms, List.flatMap_singleton]

/-- **No two values of one kind are written alike.** An expression with one variable writes both,
and writes the same only if they are the same. -/
theorem expand_eq_iff_value_eq {operator : Option Operator} {v : Varspec}
    (h : KeepsApart operator v.modifier) {a b : Value} (hkind : a.SameKind b) {l m : Lookup}
    (hl : l.value? v.name = .ok (some a)) (hm : m.value? v.name = .ok (some b)) :
    ∃ s t, Expression.expand ⟨operator, [v]⟩ l = .ok s ∧
      Expression.expand ⟨operator, [v]⟩ m = .ok t ∧ (s = t ↔ a = b) := by
  refine ⟨_, _, Expression.expand_singleton operator v hl,
    Expression.expand_singleton operator v hm, fun htext => ?_, fun hvalue => by rw [hvalue]⟩
  refine Rules.joinAtoms_atoms_inj h.escapes h.limit?_eq_none (fun hexploded => ?_) hkind htext
  have hmodifier : v.modifier = some .explode := of_decide_eq_true hexploded
  exact KeepsApart.separatesBy (hmodifier ▸ h)

/-- A key that occurs twice, once with a value that is written without `=`. -/
theorem expand_eq_iff_value_eq_repeated_key :
    let a : Value := .assoc [(['k'], []), (['k'], ['=', ';'])]
    let b : Value := .assoc [(['k'], ['=', ';']), (['k'], [])]
    let e : Expression := ⟨some .pathParameter, [⟨['x'], some .explode⟩]⟩
    KeepsApart (some .pathParameter) (some .explode) ∧ a.SameKind b ∧
      ∃ s t, e.expand (.ofValues fun _ => some a) = .ok s ∧
        e.expand (.ofValues fun _ => some b) = .ok t ∧ s ≠ t := by
  intro a b e
  have hkeeps : KeepsApart (some .pathParameter) (some .explode) := .inl ⟨by decide, by decide⟩
  have hkind : a.SameKind b := .assoc (by decide) (by decide)
  obtain ⟨s, t, hs, ht, hst⟩ := expand_eq_iff_value_eq (v := ⟨['x'], some .explode⟩) hkeeps hkind
    (Lookup.value?_ofValues (fun _ => some a) ['x'])
    (Lookup.value?_ofValues (fun _ => some b) ['x'])
  exact ⟨hkeeps, hkind, s, t, hs, ht, fun heq => absurd (hst.1 heq) (by decide)⟩

/-- In a label, a point of an item looks like one between items. -/
example : Expression.expand ⟨some .label, [⟨['x'], some .explode⟩]⟩
      (.ofValues fun _ => some (.list [['a', '.', 'b']])) =
    Expression.expand ⟨some .label, [⟨['x'], some .explode⟩]⟩
      (.ofValues fun _ => some (.list [['a'], ['b']])) := by
  decide

end LinkTemplate
