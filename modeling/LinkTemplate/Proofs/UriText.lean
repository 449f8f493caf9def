import LinkTemplate.Proofs.Atoms
import LinkTemplate.Proofs.Cutting
import LinkTemplate.Proofs.Encoded

/-!
# What expansion writes is URI text

URI text consists of unreserved and reserved characters and triplets, every `%` being the head
of a triplet. Whatever an expression writes is URI text: names, keys and values are encoded or
quoted, and the marks between them are URI characters. A piece of URI text ends with no open
triplet, so pieces may stand side by side in any order.

Literals are URI text when they are encoded, too. The expansion of a whole template is then URI
text. It holds no brace, so reading it finds no expression, and it is its own encoding, so
expanding it once more changes nothing. What came from a value is never read as a template.

Main results: `isUriText_expandItems`, `Template.parse_of_isUriText`.
-/

namespace LinkTemplate

open Text

/-! ## URI text -/

/-- Unreserved characters, reserved characters and triplets, and no other `%`. -/
def IsUriText (text : Text) : Prop := Percent.Encoded isUriChar text

theorem isPercent_eq_false_of_isUriChar {c : Char} (h : isUriChar c = true) :
    isPercent c = false := by
  refine Bool.eq_false_iff.2 fun hpercent => ?_
  rw [eq_percent_of_isPercent hpercent, isUriChar_percent] at h
  cases h

theorem isUriText_of_all {text : Text} (h : text.all isUriChar = true) : IsUriText text := by
  refine .of_forall fun c hc => ?_
  have hchar := List.all_eq_true.1 h c hc
  exact ⟨hchar, isPercent_eq_false_of_isUriChar hchar⟩

theorem isUriChar_of_isUnreserved {c : Char} (h : isUnreserved c = true) : isUriChar c = true := by
  rw [isUriChar, h, Bool.true_or]

theorem isUriText_intercalate {sep : Text} (hsep : IsUriText sep) {pieces : List Text}
    (h : ∀ piece ∈ pieces, IsUriText piece) : IsUriText (sep.intercalate pieces) :=
  intercalate_induction .nil (fun _ _ hbefore hafter => hbefore.append hafter) hsep h

theorem isUriText_equals : IsUriText ['='] := isUriText_of_all (by decide)

theorem isUriText_encode_name (name : Text) : IsUriText (Percent.encode isUnreserved name) :=
  (Percent.encoded_encode name).mono fun _ => isUriChar_of_isUnreserved

theorem Policy.isUriText_escape (policy : Policy) (text : Text) :
    IsUriText (policy.escape text) := by
  cases policy with
  | unreserved =>
    have hquote : Percent.Encoded isUnreserved (Percent.quote isUnreserved text) :=
      Percent.encoded_quote (by decide) text
    exact hquote.mono fun _ => isUriChar_of_isUnreserved
  | uri => exact Percent.encoded_encode text

/-! ## Atoms -/

structure Rules.HasUriMarks (rules : Rules) : Prop where
  first : IsUriText rules.first
  sep : IsUriText rules.sep
  ifEmpty : IsUriText rules.ifEmpty

theorem Rules.hasUriMarks_of (op : Option Operator) : (Rules.of op).HasUriMarks := by
  rcases op with _ | op
  · exact ⟨.nil, isUriText_of_all (by decide), .nil⟩
  · cases op <;>
      exact ⟨isUriText_of_all (by decide), isUriText_of_all (by decide),
        isUriText_of_all (by decide)⟩

namespace Rules

variable {rules : Rules}

theorem isUriText_escape (rules : Rules) (text : Text) : IsUriText (rules.escape text) :=
  rules.policy.isUriText_escape text

/-- Behind a name there is `=` and a value, or the mark of an empty one. -/
theorem HasUriMarks.isUriText_behind_name (h : rules.HasUriMarks) (p : Prop) [Decidable p]
    (text : Text) : IsUriText (if p then rules.ifEmpty else '=' :: rules.escape text) := by
  split_ifs
  · exact h.ifEmpty
  · exact isUriText_equals.append (rules.isUriText_escape text)

theorem HasUriMarks.isUriText_stringAtom (h : rules.HasUriMarks) {name : Text}
    (hname : IsUriText name) (text : Text) : IsUriText (rules.stringAtom name text) := by
  unfold stringAtom
  split
  · exact hname.append (h.isUriText_behind_name _ text)
  · exact rules.isUriText_escape text

theorem HasUriMarks.isUriText_pairAtom (h : rules.HasUriMarks) (pair : Text × Text) :
    IsUriText (rules.pairAtom pair) :=
  (rules.isUriText_escape pair.1).append (h.isUriText_behind_name _ pair.2)

theorem isUriText_compositeAtom {name : Text} (hname : IsUriText name) (parts : List Text) :
    IsUriText (rules.compositeAtom name parts) := by
  have hparts : IsUriText (List.intercalate [','] (parts.map rules.escape)) := by
    refine isUriText_intercalate (isUriText_of_all (by decide)) fun piece hpiece => ?_
    obtain ⟨part, -, rfl⟩ := List.mem_map.1 hpiece
    exact rules.isUriText_escape part
  unfold compositeAtom
  split
  · exact (hname.append isUriText_equals).append hparts
  · exact hparts

theorem HasUriMarks.isUriText_atom (h : rules.HasUriMarks) {v : Varspec} {value? : Option Value}
    {atom : Text} (hatom : atom ∈ rules.atoms v value?) : IsUriText atom := by
  have hname := isUriText_encode_name v.name
  match value? with
  | none => exact absurd hatom List.not_mem_nil
  | some (.string text) =>
    obtain rfl := List.mem_singleton.1 hatom
    exact h.isUriText_stringAtom hname _
  | some (.list items) =>
    rw [atoms] at hatom
    split_ifs at hatom
    · exact absurd hatom List.not_mem_nil
    · obtain ⟨item, -, rfl⟩ := List.mem_map.1 hatom
      exact h.isUriText_stringAtom hname item
    · obtain rfl := List.mem_singleton.1 hatom
      exact isUriText_compositeAtom hname items
  | some (.assoc pairs) =>
    rw [atoms] at hatom
    split_ifs at hatom
    · exact absurd hatom List.not_mem_nil
    · obtain ⟨pair, -, rfl⟩ := List.mem_map.1 hatom
      exact h.isUriText_pairAtom pair
    · obtain rfl := List.mem_singleton.1 hatom
      exact isUriText_compositeAtom hname _

theorem HasUriMarks.isUriText_joinAtoms (h : rules.HasUriMarks) {atoms : List Text}
    (hatoms : ∀ atom ∈ atoms, IsUriText atom) : IsUriText (rules.joinAtoms atoms) := by
  unfold joinAtoms
  split_ifs
  · exact .nil
  · exact h.first.append (isUriText_intercalate h.sep hatoms)

end Rules

/-! ## Expressions and items -/

/-- **An expression writes URI text**, whatever its variables are and wherever they are looked
up. -/
theorem Expression.isUriText_expand {e : Expression} {l : Lookup} {text : Text}
    (h : e.expand l = .ok text) : IsUriText text := by
  rw [e.expand_eq_map_bind] at h
  cases hbind : e.bind l with
  | error failure =>
    rw [hbind] at h
    cases h
  | ok bound =>
    rw [hbind] at h
    cases h
    have hrules := Rules.hasUriMarks_of e.operator
    refine hrules.isUriText_joinAtoms fun atom hatom => ?_
    obtain ⟨b, -, hb⟩ := List.mem_flatMap.1 hatom
    exact hrules.isUriText_atom hb

theorem Item.isUriText_expand {i : Item} {l : Lookup} {text : Text}
    (h : i.expand true l = .ok text) : IsUriText text := by
  cases i with
  | literal literal =>
    cases h
    exact Percent.encoded_encode literal
  | expression e => exact Expression.isUriText_expand h

theorem isUriText_expandItems {items : List Item} {l : Lookup} {text : Text}
    (h : expandItems true items l = .ok text) : IsUriText text := by
  obtain ⟨texts, htexts, hret⟩ := bind_eq_ok_iff.1 h
  cases hret
  refine .flatten fun piece hpiece => ?_
  obtain ⟨i, -, hi⟩ := exists_mem_of_mem_right (mapM_eq_ok_iff.1 htexts) hpiece
  exact Item.isUriText_expand hi

theorem Expression.exists_expand (e : Expression) {l : Lookup} {value? : Text → Option Value}
    (h : l.Answers value?) : ∃ text, e.expand l = .ok text := by
  rw [e.expand_eq_map_bind, e.bind_of_answers h]
  exact ⟨_, rfl⟩

theorem exists_expandItems (encodeLiterals : Bool) (items : List Item) {l : Lookup}
    {value? : Text → Option Value} (h : l.Answers value?) :
    ∃ text, expandItems encodeLiterals items l = .ok text := by
  have hitem : ∀ i : Item, ∃ text, i.expand encodeLiterals l = .ok text := by
    intro i
    cases i with
    | literal literal => exact ⟨_, rfl⟩
    | expression e => exact e.exists_expand h
  choose text htext using hitem
  exact ⟨_, bind_eq_ok_iff.2 ⟨_, mapM_eq_ok_map fun i _ => htext i, rfl⟩⟩

/-! ## Reading what was written -/

theorem IsUriText.open_not_mem {text : Text} (h : IsUriText text) : '\x7b' ∉ text := by
  intro hmem
  have hchar := Percent.Encoded.mem h hmem
  revert hchar
  decide

/-- **URI text is no template.** It is read as one literal at most, and expands to itself. -/
theorem Template.parse_of_isUriText {text : Text} (h : IsUriText text) (settings : Settings) :
    ∃ t, Template.parse settings text = .ok t ∧ (t.items = [] ∨ t.items = [.literal text]) ∧
      ∀ l, t.expand l = .ok text := by
  have hread := Template.readItems_of_not_mem h.open_not_mem
  refine ⟨⟨if text = [] then [] else [.literal text], settings⟩, ?_, ?_, fun l => ?_⟩
  · rw [Template.parse, hread]
    rfl
  · by_cases hempty : text = []
    · exact .inl (if_pos hempty)
    · exact .inr (if_neg hempty)
  · have hliteral : literalText settings.encodeLiterals text = text := by
      unfold literalText
      split_ifs
      · exact Percent.Encoded.encode_eq h
      · rfl
    by_cases hempty : text = []
    · rw [Template.expand, if_pos hempty, hempty]
      rfl
    · rw [Template.expand, if_neg hempty]
      change Except.ok [literalText settings.encodeLiterals text].flatten = _
      rw [hliteral, List.flatten_singleton]

/-- **Expansion writes URI text**, each expression by itself and, with encoded literals, all
items together. So the expansion of a template is no template any more: under any settings it is
read as one literal at most, which expands to itself under any lookup. -/
theorem uriText_of_expansion {l : Lookup} {value? : Text → Option Value}
    (hl : l.Answers value?) :
    (∀ e : Expression, ∃ text, e.expand l = .ok text ∧ IsUriText text) ∧
      (∀ items, ∃ text, expandItems true items l = .ok text ∧ IsUriText text) ∧
      ∀ (t : Template) (vars : Variables) (overrides : Assignment Datum) (text : Text),
        t.settings.encodeLiterals = true → t.expandWith vars overrides = .ok text →
        ∀ settings, ∃ again, Template.parse settings text = .ok again ∧
          (again.items = [] ∨ again.items = [.literal text]) ∧
          ∀ l', again.expand l' = .ok text := by
  refine ⟨fun e => ?_, fun items => ?_, fun t vars overrides text hsettings ht => ?_⟩
  · obtain ⟨text, htext⟩ := e.exists_expand hl
    exact ⟨text, htext, Expression.isUriText_expand htext⟩
  · obtain ⟨text, htext⟩ := exists_expandItems true items hl
    exact ⟨text, htext, isUriText_expandItems htext⟩
  · obtain ⟨l, -, hexpand⟩ := bind_eq_ok_iff.1 ht
    rw [Template.expand, hsettings] at hexpand
    exact Template.parse_of_isUriText (isUriText_expandItems hexpand)

/-- Braces and stray `%` in a literal and in a value of `+`, which keeps triplets. -/
theorem uriText_of_expansion_braces :
    let value? : Text → Option Value := fun name =>
      if name = ['x'] then some (.string "\x7by\x7d%4".toList) else none
    let t : Template := ⟨[.literal "\x7b%é%2f".toList,
      .expression ⟨some .reserved, [⟨['x'], none⟩]⟩], ⟨true, none, false⟩⟩
    let text : Text := "%7B%25%C3%A9%2f%7By%7D%254".toList
    (Lookup.ofValues value?).Answers value? ∧ t.settings.encodeLiterals = true ∧
      t.expandWith (.lookup (Lookup.ofValues value?)) [] = .ok text ∧ IsUriText text ∧
      ∃ again, Template.parse ⟨false, none, true⟩ text = .ok again ∧
        (again.items = [] ∨ again.items = [.literal text]) ∧ ∀ l', again.expand l' = .ok text := by
  intro value? t text
  have hl := Lookup.answers_ofValues value?
  have ht : t.expandWith (.lookup (Lookup.ofValues value?)) [] = .ok text := by decide
  obtain ⟨-, hitems, hagain⟩ := uriText_of_expansion hl
  obtain ⟨text', htext', huri⟩ := hitems t.items
  obtain rfl : text' = text := Except.ok.inj (htext'.symm.trans ht)
  exact ⟨hl, rfl, ht, huri, hagain t _ [] _ rfl ht ⟨false, none, true⟩⟩

end LinkTemplate
